import Mathlib.Tactic.SplitIfs
import TableTail.Json.Printing
import TableTail.Json.Reading
import TableTail.Proofs.Named.Sorted
import TableTail.Proofs.Text.Numerals

/-!
# Documents and their texts

A document is read from its own text (`read?_text`), if its objects have their names in order, its
numbers are read as they are printed, and it does not open more arrays and objects in one another
than a reader allows (`Within`). Strings may hold any characters (`tokens_stringText`), and integers
of 64 bits are read as they are printed (`faithful_int`).

Splitting a text into tokens and taking them in are followed together (`feed`): the text of a value
leads from where a value is expected to where it has been taken in, whatever comes behind it.
-/

namespace TableTail.Json

section Strings

/-- What the escaped form of a character is read as: control characters without a letter of their
own are written by their number. -/
def pieceOf (c : Char) : Piece :=
  if 0x20 ≤ c.toNat ∨ c ∈ ['\n', '\r', '\t', '\x08', '\x0c'] then .char c else .unit c.toNat

/-- A hexadecimal digit is read as it was written. -/
lemma hexDigit?_hexChar {n : Nat} (h : n < 16) : Text.hexDigit? (Text.hexChar n) = some n := by
  have hall : ∀ n : Fin 16, Text.hexDigit? (Text.hexChar n) = some n.val := by decide
  exact hall ⟨n, h⟩

/-- A character that is written by its number is read as this number. -/
lemma tokens_code (p : List Piece) {n : Nat} (h : n < 256) (rest : List Char) :
    tokens (.inside p)
      (['\\', 'u', '0', '0', Text.hexChar (n / 16), Text.hexChar (n % 16)] ++ rest) =
        tokens (.inside (.unit n :: p)) rest := by
  have hhigh := hexDigit?_hexChar (show n / 16 < 16 by omega)
  have hlow := hexDigit?_hexChar (show n % 16 < 16 by omega)
  have hzero : Text.hexDigit? '0' = some 0 := rfl
  have hvalue : 16 * (n / 16) + n % 16 = n := by omega
  simp [tokens, hzero, hhigh, hlow, hvalue]

/-- An escaped character is read as one piece. -/
lemma tokens_escape (p : List Piece) (c : Char) (rest : List Char) :
    tokens (.inside p) (escape c ++ rest) = tokens (.inside (pieceOf c :: p)) rest := by
  unfold escape
  split_ifs with hquote hslash hn hr ht hb hf hcontrol
  · subst hquote
    rfl
  · subst hslash
    rfl
  · subst hn
    rfl
  · subst hr
    rfl
  · subst ht
    rfl
  · subst hb
    rfl
  · subst hf
    rfl
  · have hpiece : pieceOf c = .unit c.toNat := by
      simp [pieceOf, hn, hr, ht, hb, hf, Nat.not_le.2 hcontrol]
    rw [hpiece]
    exact tokens_code p (by omega) rest
  · have hpiece : pieceOf c = .char c := by simp [pieceOf, Nat.not_lt.1 hcontrol]
    rw [hpiece, List.singleton_append, tokens]
    simp [hquote, hslash, hcontrol]

/-- Escaped characters are read one after the other. -/
lemma tokens_flatMap_escape (p : List Piece) (cs rest : List Char) :
    tokens (.inside p) (cs.flatMap escape ++ rest) =
      tokens (.inside ((cs.map pieceOf).reverse ++ p)) rest := by
  induction cs generalizing p with
  | nil => rfl
  | cons c cs ih =>
    rw [List.flatMap_cons, List.append_assoc, tokens_escape, ih]
    simp

/-- The pieces of characters make up these characters. -/
lemma join_map_pieceOf (cs : List Char) : join (cs.map pieceOf) = some cs := by
  induction cs with
  | nil => rfl
  | cons c cs ih =>
    rw [List.map_cons]
    by_cases hchar : 0x20 ≤ c.toNat ∨ c ∈ ['\n', '\r', '\t', '\x08', '\x0c']
    · rw [pieceOf, if_pos hchar, join, ih]
      rfl
    · have hlow : c.toNat < 0x20 := by omega
      have hhead : pieceOf c = .unit c.toNat := if_neg hchar
      have hsurrogate : ¬ (0xD800 ≤ c.toNat ∧ c.toNat < 0xE000) := by omega
      have hhigh : ¬ (0xD800 ≤ c.toNat ∧ c.toNat < 0xDC00) := by omega
      have hlower : ¬ (0xDC00 ≤ c.toNat ∧ c.toNat < 0xE000) := by omega
      rw [hhead]
      cases hrest : cs.map pieceOf with
      | nil =>
        rw [hrest] at ih
        rw [join, if_neg hsurrogate, ih, Option.map_some, Char.ofNat_toNat]
        simp
      | cons piece rest =>
        rw [hrest] at ih
        cases piece with
        | char d => 
          rw [join, if_neg hsurrogate, ih, Option.map_some, Char.ofNat_toNat]
          simp
        | unit code =>
          rw [join, if_neg hhigh, if_neg hlower, ih, Option.map_some, Char.ofNat_toNat]

/-- The text of a string is read as this string, whatever comes behind it. -/
theorem tokens_stringText (s : String) (rest : List Char) :
    tokens .between ((stringText s).toList ++ rest) =
      (tokens .between rest).map (.string s :: ·) := by
  have hinside := tokens_flatMap_escape [] s.toList ('"' :: rest)
  have hend : tokens (.inside (s.toList.map pieceOf).reverse) ('"' :: rest) =
      (tokens .between rest).map (.string s :: ·) := by
    rw [tokens, if_pos rfl, List.reverse_reverse, join_map_pieceOf]
    simp [String.ofList_toList]
  rw [List.append_nil] at hinside
  rw [← hend, ← hinside, stringText]
  simp [tokens, isSpace]

end Strings

section Words

/-- A character of a word or number. -/
def IsWordChar (c : Char) : Prop := isSpace c = false ∧ c ≠ '"' ∧ markToken c = none

instance : DecidablePred IsWordChar := fun c =>
  inferInstanceAs (Decidable (isSpace c = false ∧ c ≠ '"' ∧ markToken c = none))

/-- Whether all characters of a list are characters of words can be evaluated. -/
lemma isWordChar_of_all {w : List Char} (h : w.all (IsWordChar ·) = true) :
    ∀ c ∈ w, IsWordChar c := by
  simpa using h

/-- A place where a word or number ends: a mark, or the end of the text. -/
def Ends (rest : List Char) : Prop := ∀ c ∈ rest.head?, (markToken c).isSome

/-- A mark is no blank and no quote. -/
lemma of_markToken {c : Char} {t : Token} (h : markToken c = some t) :
    isSpace c = false ∧ c ≠ '"' := by
  unfold markToken at h
  split_ifs at h with h₁ h₂ h₃ h₄ h₅ h₆
  all_goals first | subst_vars; decide

/-- A mark is a token of its own. -/
lemma tokens_mark {c : Char} {t : Token} (h : markToken c = some t) (rest : List Char) :
    tokens .between (c :: rest) = (tokens .between rest).map (t :: ·) := by
  obtain ⟨hspace, hquote⟩ := of_markToken h
  rw [tokens]
  simp [hspace, hquote, h]

/-- The rest of a word is read to its end. -/
lemma tokens_word_append (v : List Char) {w rest : List Char} (hw : ∀ c ∈ w, IsWordChar c)
    (hrest : Ends rest) :
    tokens (.word v) (w ++ rest) =
      (wordToken (v.reverse ++ w)).bind fun t => (tokens .between rest).map (t :: ·) := by
  induction w generalizing v with
  | nil =>
    rw [List.nil_append, List.append_nil]
    cases rest with
    | nil =>
      rw [tokens, tokens]
      cases wordToken v.reverse <;> rfl
    | cons c rest =>
      obtain ⟨t, ht⟩ := Option.isSome_iff_exists.1 (hrest c rfl)
      obtain ⟨hspace, hquote⟩ := of_markToken ht
      rw [tokens_mark ht, tokens]
      simp only [hspace, hquote, ht, if_false, Bool.false_eq_true, Option.map_map]
      rfl
  | cons c w ih =>
    obtain ⟨hspace, hquote, hmark⟩ := hw c (by simp)
    rw [List.cons_append, tokens]
    simp only [hspace, hquote, hmark, if_false, Bool.false_eq_true]
    rw [ih (c :: v) fun d hd => hw d (by simp [hd])]
    simp

/-- A word is read up to where it ends. -/
theorem tokens_word {w rest : List Char} {t : Token} (hne : w ≠ []) (hw : ∀ c ∈ w, IsWordChar c)
    (ht : wordToken w = some t) (hrest : Ends rest) :
    tokens .between (w ++ rest) = (tokens .between rest).map (t :: ·) := by
  cases w with
  | nil => exact absurd rfl hne
  | cons c w =>
    obtain ⟨hspace, hquote, hmark⟩ := hw c (by simp)
    rw [List.cons_append, tokens]
    simp only [hspace, hquote, hmark, if_false, Bool.false_eq_true]
    rw [tokens_word_append [c] (fun d hd => hw d (by simp [hd])) hrest]
    simp [ht]

/-- A number that is read as it is printed. -/
structure Number.Faithful (x : Number) : Prop where
  read : readNumber x.text.toList = some x
  chars : ∀ c ∈ x.text.toList, IsWordChar c

/-- The text of such a number is read as this number. -/
lemma Number.Faithful.wordToken {x : Number} (h : x.Faithful) :
    wordToken x.text.toList = some (.number x) := by
  have hword : ∀ w : List Char, readNumber w = none → x.text.toList ≠ w := by
    intro w hw heq
    have := h.read
    rw [heq, hw] at this
    cases this
  simp [Json.wordToken, h.read, hword ['n', 'u', 'l', 'l'] rfl, hword ['t', 'r', 'u', 'e'] rfl,
    hword ['f', 'a', 'l', 's', 'e'] rfl]

/-- Digits are characters of a word. -/
lemma isWordChar_digitChar {d : Nat} (h : d < 10) : IsWordChar (Text.digitChar d) := by
  have hall : ∀ d : Fin 10, IsWordChar (Text.digitChar d) := by decide
  exact hall ⟨d, h⟩

/-- Digits without leading zeros, with a sign or without, are read as an integer. -/
lemma readNumber_map_digitChar {ds : List Nat} (h : Text.AreDigits ds) (hne : ds ≠ [])
    (hlead : ∀ d more, ds = d :: more → more ≠ [] → 0 < d) (negative : Bool) :
    readNumber ((if negative then ['-'] else []) ++ ds.map Text.digitChar) =
      integerOfParts negative ds := by
  have hspan := Text.spanDigits_map_digitChar h [] (by simp)
  rw [List.append_nil] at hspan
  have hzero : ∀ d more, ds ≠ 0 :: d :: more := fun d more hds =>
    absurd (hlead 0 (d :: more) hds (by simp)) (by decide)
  cases negative with
  | true =>
    -- `hne` and `hzero` rule out the ways in which digits are no number
    simp only [if_true, List.singleton_append, readNumber, hspan]
  | false =>
    cases ds with
    | nil => exact absurd rfl hne
    | cons d more =>
      have hminus : Text.digitChar d ≠ '-' := Text.digitChar_ne (h d (by simp)) (by decide)
      simp only [Bool.false_eq_true, if_false, List.nil_append, List.map_cons] at hspan ⊢
      unfold readNumber
      split
      next negative' s' hmatch =>
        split at hmatch
        · next rest heq => exact absurd (List.cons.inj heq).1 hminus
        · obtain ⟨rfl, rfl⟩ := Prod.mk.inj hmatch
          simp only [hspan]

/-- Integers of 64 bits, signed or unsigned, are read as they are printed. -/
theorem faithful_int {i : Int} (hmin : -(2 ^ 63) ≤ i) (hmax : i < 2 ^ 64) :
    (Number.int i).Faithful where
  read := by
    have hvalue := Text.ofDigits_toDigits i.natAbs
    have hread := readNumber_map_digitChar (Text.areDigits_toDigits i.natAbs)
      (Text.toDigits_ne_nil _) (fun d more h hmore => Text.toDigits_head_pos h hmore)
      (decide (i < 0))
    simp only [decide_eq_true_eq] at hread
    rw [Number.text, Text.toList_intText, hread, integerOfParts, hvalue]
    by_cases hneg : i < 0
    · have hsize : 0 < i.natAbs ∧ i.natAbs ≤ 2 ^ 63 := by omega
      have hsame : -(i.natAbs : Int) = i := by omega
      simp only [hneg, decide_true, if_true, if_pos hsize, hsame]
    · have hsize : i.natAbs < 2 ^ 64 := by omega
      have hsame : (i.natAbs : Int) = i := by omega
      simp only [hneg, decide_false, Bool.false_eq_true, if_false, if_pos hsize, hsame]
  chars c hc := by
    rw [Number.text, Text.toList_intText] at hc
    rcases List.mem_append.1 hc with hc | hc
    · split at hc
      · obtain rfl := List.mem_singleton.1 hc
        exact ⟨rfl, by decide, rfl⟩
      · cases hc
    · obtain ⟨d, hd, rfl⟩ := List.mem_map.1 hc
      exact isWordChar_digitChar (Text.areDigits_toDigits _ d hd)

end Words

section Values

/-- Documents that open at most a number of arrays and objects in one another, with the names of
objects in order and with numbers that are read as they are printed. -/
inductive Within : Nat → Json → Prop
  | null {n : Nat} : Within n .null
  | bool {n : Nat} (value : Bool) : Within n (.bool value)
  | number {n : Nat} {value : Number} (h : value.Faithful) : Within n (.number value)
  | string {n : Nat} (value : String) : Within n (.string value)
  | array {n : Nat} {items : List Json} (h : ∀ item ∈ items, Within n item) :
      Within (n + 1) (.array items)
  | object {n : Nat} {fields : List (String × Json)} (hsorted : Named.Sorted fields)
      (h : ∀ field ∈ fields, Within n field.2) : Within (n + 1) (.object fields)

/-- Splits a text into tokens and takes them in. -/
def feed (state : Expected × List Frame) (s : List Char) : Option (Expected × List Frame) :=
  (tokens .between s).bind fun ts => ts.foldlM take state

/-- A token is taken in before those behind it. -/
lemma feed_of_tokens {state : Expected × List Frame} {s rest : List Char} {t : Token}
    (h : tokens .between s = (tokens .between rest).map (t :: ·)) :
    feed state s = (take state t).bind fun next => feed next rest := by
  rw [feed, h]
  cases hrest : tokens .between rest with
  | none => cases take state t <;> simp [feed, hrest]
  | some ts =>
    simp only [Option.map_some, Option.bind_some, List.foldlM_cons, feed, hrest]
    rfl

/-- A mark is taken in. -/
lemma feed_mark {state next : Expected × List Frame} {c : Char} {t : Token}
    (hc : markToken c = some t) (ht : take state t = some next) (rest : List Char) :
    feed state (c :: rest) = feed next rest := by
  rw [feed_of_tokens (tokens_mark hc rest), ht]
  rfl

/-- A name is taken in. -/
lemma feed_name {state next : Expected × List Frame} {name : String}
    (ht : take state (.string name) = some next) (rest : List Char) :
    feed state ((stringText name).toList ++ rest) = feed next rest := by
  rw [feed_of_tokens (tokens_stringText name rest), ht]
  rfl

/-- What the texts of values lead to, where a value is expected. -/
def Leads (n : Nat) (j : Json) : Prop :=
  ∀ (e : Expected) (stack : List Frame) (rest : List Char), e = .value ∨ e = .valueOrClose →
    stack.length + n ≤ depthLimit → Ends rest →
    feed (e, stack) (j.text.toList ++ rest) = feed (.after j, stack) rest

/-- A value that is one token starts and ends with it. -/
lemma leads_of_token {n : Nat} {j : Json} {t : Token}
    (ht : ∀ stack : List Frame, startValue stack t = some (.after j, stack))
    (htokens : ∀ rest, Ends rest →
      tokens .between (j.text.toList ++ rest) = (tokens .between rest).map (t :: ·)) :
    Leads n j := by
  intro e stack rest he _ hrest
  have hclose : t ≠ .closeArray := by
    rintro rfl
    cases ht []
  have htake : take (e, stack) t = startValue stack t := by
    rcases he with rfl | rfl
    · rfl
    · cases t <;> first | exact absurd rfl hclose | (rcases stack with _ | ⟨_ | _, _⟩ <;> rfl)
  rw [feed_of_tokens (htokens rest hrest), htake, ht]
  rfl

/-- The opening of an array or object is taken in where there is room for one. -/
lemma take_open {e : Expected} {stack : List Frame} (he : e = .value ∨ e = .valueOrClose)
    (hroom : stack.length < depthLimit) :
    take (e, stack) .openArray = some (.valueOrClose, .array [] :: stack) ∧
    take (e, stack) .openObject = some (.nameOrClose, stack) := by
  have hstart : startValue stack .openArray = some (.valueOrClose, .array [] :: stack) ∧
      startValue stack .openObject = some (.nameOrClose, stack) := by
    simp [startValue, hroom]
  rcases he with rfl | rfl
  · exact hstart
  · rcases stack with _ | ⟨_ | _, _⟩ <;> exact hstart

/-- What follows a value in an array or object begins with a mark. -/
lemma ends_itemsText (items : List Json) (rest : List Char) :
    Ends ((itemsText items).toList ++ ']' :: rest) := by
  cases items <;> simp [Ends, itemsText, markToken]

/-- What follows a value in an object begins with a mark. -/
lemma ends_fieldsText (fields : List (String × Json)) (rest : List Char) :
    Ends ((fieldsText fields).toList ++ '\x7d' :: rest) := by
  cases fields <;> simp [Ends, fieldsText, markToken]

/-- The items behind others lead to the end of their array. -/
lemma feed_itemsText {n : Nat} {items : List Json} (h : ∀ item ∈ items, Leads n item)
    (before : List Json) (value : Json) {stack : List Frame}
    (hroom : stack.length + 1 + n ≤ depthLimit) (rest : List Char) :
    feed (.after value, .array before :: stack) ((itemsText items).toList ++ ']' :: rest) =
      feed (.after (.array ((value :: before).reverse ++ items)), stack) rest := by
  induction items generalizing before value with
  | nil =>
    rw [List.append_nil]
    exact feed_mark rfl rfl rest
  | cons item items ih =>
    have hnext := h item (by simp) .value (.array (value :: before) :: stack)
      ((itemsText items).toList ++ ']' :: rest) (.inl rfl) hroom (ends_itemsText items rest)
    have hmore := ih (fun x hx => h x (by simp [hx])) (value :: before) item
    rw [itemsText, String.toList_append, String.toList_append, List.append_assoc, List.append_assoc]
    calc feed (.after value, .array before :: stack)
          (",".toList ++ (item.text.toList ++ ((itemsText items).toList ++ ']' :: rest)))
        = feed (.value, .array (value :: before) :: stack)
            (item.text.toList ++ ((itemsText items).toList ++ ']' :: rest)) := feed_mark rfl rfl _
      _ = feed (.after (.array ((item :: value :: before).reverse ++ items)), stack) rest := by
          rw [hnext, hmore]
      _ = feed (.after (.array ((value :: before).reverse ++ item :: items)), stack) rest := by
          simp

/-- The fields behind others lead to the end of their object. -/
lemma feed_fieldsText {n : Nat} {fields : List (String × Json)}
    (h : ∀ field ∈ fields, Leads n field.2) (before : List (String × Json)) (name : String)
    (value : Json) {stack : List Frame} (hroom : stack.length + 1 + n ≤ depthLimit)
    (rest : List Char) :
    feed (.after value, .field before name :: stack)
        ((fieldsText fields).toList ++ '\x7d' :: rest) =
      feed (.after (ofFields (((name, value) :: before).reverse ++ fields)), stack) rest := by
  induction fields generalizing before name value with
  | nil =>
    rw [List.append_nil]
    exact feed_mark rfl rfl rest
  | cons field fields ih =>
    obtain ⟨name', value'⟩ := field
    have hnext := h (name', value') (by simp) .value
      (.field ((name, value) :: before) name' :: stack)
      ((fieldsText fields).toList ++ '\x7d' :: rest) (.inl rfl) hroom (ends_fieldsText fields rest)
    have hmore := ih (fun x hx => h x (by simp [hx])) ((name, value) :: before) name' value'
    simp only [fieldsText, String.toList_append, List.append_assoc]
    calc feed (.after value, .field before name :: stack)
          (",".toList ++ ((stringText name').toList ++ (":".toList ++ (value'.text.toList ++
            ((fieldsText fields).toList ++ '\x7d' :: rest)))))
        = feed (.name ((name, value) :: before), stack)
            ((stringText name').toList ++ (":".toList ++ (value'.text.toList ++
              ((fieldsText fields).toList ++ '\x7d' :: rest)))) := feed_mark rfl rfl _
      _ = feed (.colon ((name, value) :: before) name', stack) (":".toList ++ (value'.text.toList ++
            ((fieldsText fields).toList ++ '\x7d' :: rest))) := feed_name rfl _
      _ = feed (.value, .field ((name, value) :: before) name' :: stack) (value'.text.toList ++
            ((fieldsText fields).toList ++ '\x7d' :: rest)) := feed_mark rfl rfl _
      _ = feed (.after (ofFields (((name', value') :: (name, value) :: before).reverse ++ fields)),
            stack) rest := by rw [hnext, hmore]
      _ = feed (.after (ofFields (((name, value) :: before).reverse ++ (name', value') :: fields)),
            stack) rest := by simp

/-- The text of an array leads to the array, if the texts of its items lead to them. -/
lemma leads_array {n : Nat} {items : List Json} (h : ∀ item ∈ items, Leads n item) :
    Leads (n + 1) (.array items) := by
  intro e stack rest he hroom _
  obtain ⟨hopen, -⟩ := take_open he (show stack.length < depthLimit by omega)
  cases items with
  | nil =>
    calc feed (e, stack) ('[' :: ']' :: rest)
        = feed (.valueOrClose, .array [] :: stack) (']' :: rest) := feed_mark rfl hopen _
      _ = feed (.after (.array []), stack) rest := feed_mark rfl rfl _
  | cons item items =>
    have hfirst := h item (by simp) .valueOrClose (.array [] :: stack)
      ((itemsText items).toList ++ ']' :: rest) (.inr rfl) (by rw [List.length_cons]; omega)
      (ends_itemsText items rest)
    have hmore := feed_itemsText (fun x hx => h x (List.mem_cons_of_mem _ hx)) [] item
      (show stack.length + 1 + n ≤ depthLimit by omega) rest
    simp only [text, String.toList_append, List.append_assoc]
    calc feed (e, stack)
          ("[".toList ++ (item.text.toList ++ ((itemsText items).toList ++ ("]".toList ++ rest))))
        = feed (.valueOrClose, .array [] :: stack)
            (item.text.toList ++ ((itemsText items).toList ++ ']' :: rest)) := feed_mark rfl hopen _
      _ = feed (.after (.array (item :: items)), stack) rest := by
          rw [hfirst, hmore]
          rfl

/-- The text of an object with its names in order leads to the object, if the texts of its values
lead to them. -/
lemma leads_object {n : Nat} {fields : List (String × Json)} (hsorted : Named.Sorted fields)
    (h : ∀ field ∈ fields, Leads n field.2) : Leads (n + 1) (.object fields) := by
  intro e stack rest he hroom _
  obtain ⟨-, hopen⟩ := take_open he (show stack.length < depthLimit by omega)
  cases fields with
  | nil =>
    calc feed (e, stack) ('\x7b' :: '\x7d' :: rest)
        = feed (.nameOrClose, stack) ('\x7d' :: rest) := feed_mark rfl hopen _
      _ = feed (.after (.object []), stack) rest := feed_mark rfl rfl _
  | cons field fields =>
    obtain ⟨name, value⟩ := field
    have hfirst := h (name, value) (by simp) .value (.field [] name :: stack)
      ((fieldsText fields).toList ++ '\x7d' :: rest) (.inl rfl) (by rw [List.length_cons]; omega)
      (ends_fieldsText fields rest)
    have hmore := feed_fieldsText (fun x hx => h x (List.mem_cons_of_mem _ hx)) [] name value
      (show stack.length + 1 + n ≤ depthLimit by omega) rest
    have hself : ofFields ((name, value) :: fields) = .object ((name, value) :: fields) :=
      congrArg Json.object (Named.ofPairs_eq_self hsorted)
    simp only [text, String.toList_append, List.append_assoc]
    calc feed (e, stack) ("\x7b".toList ++ ((stringText name).toList ++ (":".toList ++
          (value.text.toList ++ ((fieldsText fields).toList ++ ("\x7d".toList ++ rest))))))
        = feed (.nameOrClose, stack) ((stringText name).toList ++ (":".toList ++
            (value.text.toList ++ ((fieldsText fields).toList ++ '\x7d' :: rest)))) :=
          feed_mark rfl hopen _
      _ = feed (.colon [] name, stack) (":".toList ++ (value.text.toList ++
            ((fieldsText fields).toList ++ '\x7d' :: rest))) := feed_name rfl _
      _ = feed (.value, .field [] name :: stack) (value.text.toList ++
            ((fieldsText fields).toList ++ '\x7d' :: rest)) := feed_mark rfl rfl _
      _ = feed (.after (.object ((name, value) :: fields)), stack) rest := by
          rw [hfirst, hmore, ← hself]
          rfl

/-- A value that is one word starts and ends with it. -/
lemma leads_of_word {n : Nat} {j : Json} {w : List Char} {t : Token} (htext : j.text.toList = w)
    (hne : w ≠ []) (hw : ∀ c ∈ w, IsWordChar c) (ht : wordToken w = some t)
    (hvalue : ∀ stack : List Frame, startValue stack t = some (.after j, stack)) : Leads n j :=
  leads_of_token hvalue fun rest hrest => by rw [htext, tokens_word hne hw ht hrest]

/-- The text of a document leads to the document. -/
theorem leads_text {n : Nat} {j : Json} (h : Within n j) : Leads n j := by
  induction h with
  | null =>
    exact leads_of_word (w := ['n', 'u', 'l', 'l']) rfl (by decide)
      (isWordChar_of_all (by decide)) rfl fun _ => rfl
  | bool value =>
    cases value with
    | false =>
      exact leads_of_word (w := ['f', 'a', 'l', 's', 'e']) rfl (by decide)
        (isWordChar_of_all (by decide)) rfl fun _ => rfl
    | true =>
      exact leads_of_word (w := ['t', 'r', 'u', 'e']) rfl (by decide)
        (isWordChar_of_all (by decide)) rfl fun _ => rfl
  | number h =>
    refine leads_of_word rfl (fun hnil => ?_) h.chars h.wordToken fun _ => rfl
    have hread := h.read
    rw [show (Number.text _).toList = [] from hnil] at hread
    cases hread
  | string value => exact leads_of_token (fun _ => rfl) fun rest _ => tokens_stringText value rest
  | array _ ih => exact leads_array ih
  | object hsorted _ ih => exact leads_object hsorted ih

/-- A document is read from its text. -/
theorem read?_text {j : Json} (h : Within depthLimit j) : read? j.text = some j := by
  have hleads := leads_text h .value [] [] (.inl rfl) (by simp) (by simp [Ends])
  have hend : feed (.after j, []) [] = some (.after j, []) := rfl
  rw [List.append_nil, hend, feed] at hleads
  obtain ⟨ts, hts, htake⟩ := Option.bind_eq_some_iff.1 hleads
  rw [read?, hts, Option.bind_some, assemble, htake]

end Values

end TableTail.Json
