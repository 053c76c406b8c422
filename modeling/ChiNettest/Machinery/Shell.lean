import Mathlib.Data.List.Basic
import Mathlib.Data.List.Count
import Mathlib.Data.List.Infix

/-!
# Machinery/Shell — the words of a shell command, and words in single quotes

`splitWords` cuts a command into words by the POSIX quoting rules: single quotes keep everything up
to the next one, double quotes keep everything but a backslash and what expands, a backslash keeps
one character, and unquoted blanks end words.  A command the quoting rules alone do not cut — an
unquoted operator or expansion, a quote that is not closed — has no words.  Which unquoted
characters those are is a parameter.

`quoteAll` puts each word of a list between single quotes, blanks between them.  The words come back
exactly if no quote stands in one of them (`splitWords_quoteAll_iff`).  That a word with a quote in
it cannot come back is a matter of counting: the quotes around a word are two characters more than
the word, and a reader that has taken one of its own quotes for the closing one is ahead of the
words it has to produce and stays so (`splitWords_ahead`).
-/

namespace ChiNettest

/-- What the next character is read under. -/
inductive ShellMode
  | plain
  /-- after an unquoted backslash -/
  | escaped
  | single
  | double
  /-- after a backslash in double quotes -/
  | doubleEscaped
  deriving DecidableEq, Repr

/-- Spaces and tabs end words. -/
def isBlank (c : Char) : Bool := c == ' ' || c == '\t'

/-- What a backslash quotes in double quotes. -/
def escapesInDouble (c : Char) : Bool := c == '$' || c == '`' || c == '"' || c == '\\'

section Split

variable (special expands : Char → Bool)

/-- **The words of a command.**  `special` are the characters that are no part of a word when
unquoted, `expands` those that are none in double quotes either.  Where a word has `begun`, the
first of the result is what is left of it. -/
def splitWords : (mode : ShellMode) → (begun : Bool) → List Char → Option (List (List Char))
  | .plain, false, [] => some []
  | .plain, true, [] => some [[]]
  | _, _, [] => none
  | .plain, begun, c :: cs =>
    if c = '\'' then splitWords .single true cs
    else if c = '"' then splitWords .double true cs
    else if c = '\\' then splitWords .escaped begun cs
    else if isBlank c then
      if begun then (splitWords .plain false cs).map ([] :: ·) else splitWords .plain false cs
    else if special c then none
    else (splitWords .plain true cs).map (List.modifyHead (c :: ·))
  | .escaped, begun, c :: cs =>
    -- an escaped newline joins two lines
    if c = '\n' then splitWords .plain begun cs
    else (splitWords .plain true cs).map (List.modifyHead (c :: ·))
  | .single, begun, c :: cs =>
    if c = '\'' then splitWords .plain begun cs
    else (splitWords .single begun cs).map (List.modifyHead (c :: ·))
  | .double, begun, c :: cs =>
    if c = '"' then splitWords .plain begun cs
    else if c = '\\' then splitWords .doubleEscaped begun cs
    else if expands c then none
    else (splitWords .double begun cs).map (List.modifyHead (c :: ·))
  | .doubleEscaped, begun, c :: cs =>
    if c = '\n' then splitWords .double begun cs
    else if escapesInDouble c then (splitWords .double begun cs).map (List.modifyHead (c :: ·))
    else (splitWords .double begun cs).map (List.modifyHead ('\\' :: c :: ·))

end Split

/-- A word between single quotes. -/
def quote (word : List Char) : List Char := '\'' :: word ++ ['\'']

/-- Words between single quotes, blanks between them. -/
def quoteAll (words : List (List Char)) : List Char := [' '].intercalate (words.map quote)

/-- What follows the opening quote of a word, among the words still to come. -/
def afterQuote (word : List Char) : List (List Char) → List Char
  | [] => word ++ ['\'']
  | next :: words => word ++ '\'' :: ' ' :: '\'' :: afterQuote next words

theorem quoteAll_cons (word : List Char) :
    ∀ words : List (List Char), quoteAll (word :: words) = '\'' :: afterQuote word words
  | [] => by simp [quoteAll, quote, afterQuote]
  | next :: words => by
      have ih := quoteAll_cons next words
      rw [quoteAll, List.map_cons] at ih
      rw [quoteAll, List.map_cons, List.map_cons, List.intercalate_cons_cons, ih, quote, afterQuote]
      simp

section Words

variable {special expands : Char → Bool}

/-- What comes before the words of a list, taken off its first one. -/
theorem map_modifyHead_eq_some {f : List Char → List Char} {x : Option (List (List Char))}
    {word : List Char} {words : List (List Char)} :
    x.map (List.modifyHead f) = some (word :: words) ↔
      ∃ tail, x = some (tail :: words) ∧ f tail = word := by
  rcases x with _ | _ | ⟨tail, rest⟩ <;> simp [and_comm]

/-! ## Words without a quote -/

/-- **Single quotes keep a word without a quote**, up to the closing one. -/
theorem splitWords_single : ∀ {word : List Char}, '\'' ∉ word → ∀ rest : List Char,
    splitWords special expands .single true (word ++ '\'' :: rest)
      = (splitWords special expands .plain true rest).map (List.modifyHead (word ++ ·))
  | [], _, rest => by
      have hid : List.modifyHead (([] : List Char) ++ ·) = id := by
        funext words
        cases words <;> rfl
      rw [List.nil_append, splitWords, if_pos rfl, hid, Option.map_id, id]
  | c :: word, h, rest => by
      have hc : c ≠ '\'' := fun hc => h (hc ▸ List.mem_cons_self)
      have hword : '\'' ∉ word := fun hmem => h (List.mem_cons_of_mem c hmem)
      have hcons : List.modifyHead (c :: ·) ∘ List.modifyHead (word ++ ·)
          = List.modifyHead (c :: word ++ ·) := by
        funext words
        cases words <;> rfl
      rw [List.cons_append, splitWords, if_neg hc, splitWords_single hword, Option.map_map, hcons]

/-! ## Words with a quote -/

/-- How the characters read for a word relate to the word: they are no fewer, and where they are no
more, or one more, no quoting has been at work but a single backslash. -/
def Consumed : (mode : ShellMode) → (begun : Bool) → (read word : List Char) → Prop
  | .plain, begun, read, word => word.length ≤ read.length ∧
      (read.length ≤ word.length + 1 → read.count '\'' = word.count '\'') ∧
      (read.length = word.length → '\'' ∉ read) ∧
      (begun = false → word = [] → 2 ≤ read.length)
  | .escaped, begun, read, word => word.length ≤ read.length ∧
      (read.length = word.length → read.count '\'' = word.count '\'') ∧
      (begun = false → word = [] → 1 ≤ read.length)
  | .single, _, read, word => word.length + 1 ≤ read.length
  | .double, _, read, word => word.length + 1 ≤ read.length
  | .doubleEscaped, _, read, word => word.length ≤ read.length

/-- The command ends with the word, or goes on after a blank. -/
def GoesOn (special expands : Char → Bool) (rest : List Char) (words : List (List Char)) : Prop :=
  (rest = [] ∧ words = []) ∨ ∃ c rest', rest = c :: rest' ∧ isBlank c = true ∧
    splitWords special expands .plain false rest' = some words

theorem GoesOn.blank {rest : List Char} {words : List (List Char)}
    (h : GoesOn special expands rest words) :
    rest = [] ∨ ∃ c rest', rest = c :: rest' ∧ isBlank c = true :=
  h.imp And.left fun ⟨c, rest', hcons, hblank, _⟩ => ⟨c, rest', hcons, hblank⟩

/-- **The first word of a command**: what was read for it, and what follows. -/
def FirstWord (special expands : Char → Bool) (mode : ShellMode) (begun : Bool) (cs : List Char)
    (word : List Char) (words : List (List Char)) : Prop :=
  ∃ read rest, cs = read ++ rest ∧ Consumed mode begun read word ∧
    GoesOn special expands rest words

/-- One character more is read for the word. -/
theorem FirstWord.cons {mode mode' : ShellMode} {begun begun' : Bool} {cs word word' : List Char}
    {words : List (List Char)} (h : FirstWord special expands mode begun cs word words) (c : Char)
    (hread : ∀ read, Consumed mode begun read word → Consumed mode' begun' (c :: read) word') :
    FirstWord special expands mode' begun' (c :: cs) word' words := by
  obtain ⟨read, rest, rfl, hconsumed, hrest⟩ := h
  exact ⟨c :: read, rest, rfl, hread read hconsumed, hrest⟩

theorem firstWord_of_splitWords {mode : ShellMode} {begun : Bool} {cs word : List Char}
    {words : List (List Char)}
    (h : splitWords special expands mode begun cs = some (word :: words)) :
    FirstWord special expands mode begun cs word words := by
  fun_induction splitWords special expands mode begun cs generalizing word words with
  | case1 | case3 | case9 | case17 => cases h
  | case2 =>
    obtain ⟨rfl, rfl⟩ := List.cons.inj (Option.some.inj h)
    exact ⟨[], [], rfl, by simp [Consumed], .inl ⟨rfl, rfl⟩⟩
  | case7 c cs hne hne' hne'' hblank ih =>
    obtain ⟨rest, hrest, heq⟩ := Option.map_eq_some_iff.mp h
    obtain ⟨rfl, rfl⟩ := List.cons.inj heq
    exact ⟨[], c :: cs, rfl, by simp [Consumed], .inr ⟨c, cs, rfl, hblank, hrest⟩⟩
  | case4 | case5 | case6 | case8 | case11 | case13 | case15 | case16 | case19 =>
    -- the character is read and is no part of the word
    rename_i ih
    refine (ih h).cons _ fun read hread => ?_
    simp only [Consumed, List.length_cons] at hread ⊢
    grind
  | case10 | case12 | case14 | case18 | case20 | case21 =>
    -- the character is one of the word
    rename_i ih
    obtain ⟨tail, htail, rfl⟩ := map_modifyHead_eq_some.mp h
    refine (ih htail).cons _ fun read hread => ?_
    simp only [Consumed, List.length_cons] at hread ⊢
    grind

/-- The characters read for a word are neither the word and its closing quote, nor that short of
the first character. -/
theorem ne_append_quote_of_consumed {begun : Bool} {missing read word : List Char}
    (hread : Consumed .plain begun read word) (hbegun : begun = true → word ≠ []) :
    missing ++ read ≠ word ++ ['\''] := by
  obtain ⟨hle, hcount, hnone, hempty⟩ := hread
  intro heq
  have hlen := congrArg List.length heq
  simp only [List.length_append, List.length_cons, List.length_nil] at hlen
  rcases missing with _ | ⟨first, missing⟩
  · have hquotes := hcount (by simpa using Nat.le_of_eq hlen)
    rw [List.nil_append] at heq
    rw [heq, List.count_append] at hquotes
    exact absurd hquotes (by simp)
  · rw [List.length_cons] at hlen
    obtain rfl : missing = [] := List.length_eq_zero_iff.mp (by omega)
    rcases word with _ | ⟨c, word⟩
    · obtain rfl : read = [] := (List.cons.inj heq).2
      have hnot : begun = false := Bool.eq_false_iff.mpr fun hb => hbegun hb rfl
      exact absurd (hempty hnot rfl) (by decide)
    · obtain rfl : read = word ++ ['\''] := (List.cons.inj heq).2
      exact hnone (by simp) (by simp)

/-- Nor is the closing quote the blank that ends a word as long. -/
theorem ne_append_quote_of_blank {missing read between word : List Char} {c : Char}
    (hle : word.length ≤ read.length) (hblank : isBlank c = true) :
    missing ++ (read ++ c :: between) ≠ word ++ ['\''] := by
  intro heq
  have hlen := congrArg List.length heq
  simp only [List.length_append, List.length_cons, List.length_nil] at hlen
  obtain rfl : missing = [] := List.length_eq_zero_iff.mp (by omega)
  obtain rfl : between = [] := List.length_eq_zero_iff.mp (by omega)
  obtain rfl : c = '\'' := by
    have hlast := congrArg List.getLast? heq
    simpa using hlast
  exact absurd hblank (by decide)

/-- **A word read off leaves too little.**  Of a command that ends with the word and its closing
quote, or is short of some of it, less is left than what follows the quote. -/
theorem length_lt_of_consumed {read rest word after : List Char} {begun : Bool}
    (hsuffix : read ++ rest <:+ word ++ '\'' :: after) (hread : Consumed .plain begun read word)
    (hrest : rest = [] ∨ ∃ c rest', rest = c :: rest' ∧ isBlank c = true)
    (hbegun : begun = true → word ≠ []) : rest.length < after.length := by
  by_contra hlong
  have hboth : rest <:+ word ++ '\'' :: after := (List.suffix_append read rest).trans hsuffix
  have hafter : after <:+ word ++ '\'' :: after :=
    (List.suffix_cons _ after).trans (List.suffix_append word _)
  obtain ⟨between, rfl⟩ := List.suffix_of_suffix_length_le hafter hboth (Nat.not_lt.mp hlong)
  obtain ⟨missing, hmissing⟩ := hsuffix
  have hall : (missing ++ (read ++ between)) ++ after = (word ++ ['\'']) ++ after := by
    simpa [List.append_assoc] using hmissing
  have heq : missing ++ (read ++ between) = word ++ ['\''] := List.append_cancel_right hall
  rcases between with _ | ⟨c, between⟩
  · rw [List.append_nil] at heq
    exact ne_append_quote_of_consumed hread hbegun heq
  · obtain hnil | ⟨d, rest', hcons, hblank⟩ := hrest
    · cases hnil
    · obtain rfl : c = d := (List.cons.inj hcons).1
      exact ne_append_quote_of_blank hread.1 hblank heq

/-- What follows the opening quote ends with the closing one and what follows that. -/
theorem afterQuote_append (front word : List Char) :
    ∀ words : List (List Char), afterQuote (front ++ word) words = front ++ afterQuote word words
  | [] => List.append_assoc _ _ _
  | _ :: _ => List.append_assoc _ _ _

/-- **A reader inside a word, or past part of it, reads something else**: what follows the opening
quote of a word, or the end of that, does not start with the word and go on with the others. -/
theorem splitWords_ahead : ∀ {words : List (List Char)} {word cs : List Char} {begun : Bool},
    cs <:+ afterQuote word words → (begun = true → word ≠ []) →
      splitWords special expands .plain begun cs ≠ some (word :: words)
  | [], word, cs, begun, hsuffix, hbegun => by
      intro h
      obtain ⟨read, rest, rfl, hread, hrest⟩ := firstWord_of_splitWords h
      have hlt := length_lt_of_consumed hsuffix hread hrest.blank hbegun
      exact absurd hlt (Nat.not_lt_zero _)
  | next :: words, word, cs, begun, hsuffix, hbegun => by
      intro h
      obtain ⟨read, rest, rfl, hread, hrest⟩ := firstWord_of_splitWords h
      have hlt : rest.length < (' ' :: '\'' :: afterQuote next words).length :=
        length_lt_of_consumed hsuffix hread hrest.blank hbegun
      obtain ⟨-, hnil⟩ | ⟨c, rest', rfl, -, hgoes⟩ := hrest
      · cases hnil
      · -- past the blank the reader is again inside the next word, or past part of it
        have hnext : afterQuote next words <:+ afterQuote word (next :: words) :=
          ⟨word ++ ['\'', ' ', '\''], by simp [afterQuote]⟩
        have hrest' : rest' <:+ afterQuote word (next :: words) :=
          ((List.suffix_cons c rest').trans (List.suffix_append read _)).trans hsuffix
        have hle : rest'.length ≤ (afterQuote next words).length := by
          simp only [List.length_cons] at hlt
          omega
        exact splitWords_ahead (List.suffix_of_suffix_length_le hrest' hnext hle)
          (fun hfalse => by cases hfalse) hgoes

/-! ## Words in quotes -/

/-- **A word without a quote comes back first.** -/
theorem splitWords_quoteAll_cons {word : List Char} (h : '\'' ∉ word) :
    ∀ words : List (List Char), splitWords special expands .plain false (quoteAll (word :: words))
      = (splitWords special expands .plain false (quoteAll words)).map (word :: ·)
  | [] => by
      rw [quoteAll_cons, splitWords, if_pos rfl, afterQuote, splitWords_single h]
      simp [splitWords, quoteAll]
  | next :: words => by
      have hblank : splitWords special expands .plain true (' ' :: quoteAll (next :: words))
          = (splitWords special expands .plain false (quoteAll (next :: words))).map ([] :: ·) := by
        rw [splitWords]
        rfl
      have hcons : (List.modifyHead (word ++ ·) ∘ (([] : List Char) :: ·))
          = ((word :: ·) : List (List Char) → List (List Char)) := by
        funext words
        simp
      rw [quoteAll_cons word, splitWords, if_pos rfl, afterQuote, ← quoteAll_cons,
        splitWords_single h, hblank, Option.map_map, hcons]

/-- A word with a quote does not. -/
theorem splitWords_quoteAll_ne {word : List Char} (h : '\'' ∈ word) (words : List (List Char)) :
    splitWords special expands .plain false (quoteAll (word :: words)) ≠ some (word :: words) := by
  obtain ⟨front, back, rfl, hfront⟩ := List.eq_append_cons_of_mem h
  have hafter : afterQuote ('\'' :: back) words = '\'' :: afterQuote back words :=
    afterQuote_append ['\''] back words
  rw [quoteAll_cons, splitWords, if_pos rfl, afterQuote_append, hafter, splitWords_single hfront]
  intro hsplit
  obtain ⟨tail, htail, heq⟩ := map_modifyHead_eq_some.mp hsplit
  obtain rfl : tail = '\'' :: back := List.append_cancel_left heq
  refine splitWords_ahead ?_ (fun _ => List.cons_ne_nil _ _) htail
  rw [hafter]
  exact List.suffix_cons _ _

/-- **Quoted words come back exactly if no quote stands in one of them.** -/
theorem splitWords_quoteAll_iff : ∀ words : List (List Char),
    splitWords special expands .plain false (quoteAll words) = some words ↔
      ∀ word ∈ words, '\'' ∉ word
  | [] => iff_of_true rfl fun _ h => absurd h List.not_mem_nil
  | word :: words => by
      rw [List.forall_mem_cons]
      by_cases h : '\'' ∈ word
      · exact iff_of_false (splitWords_quoteAll_ne h words) fun hall => hall.1 h
      · rw [splitWords_quoteAll_cons h, ← splitWords_quoteAll_iff words, and_iff_right h]
        constructor
        · intro hsplit
          obtain ⟨rest, hrest, heq⟩ := Option.map_eq_some_iff.mp hsplit
          rw [hrest, (List.cons.inj heq).2]
        · intro hsplit
          rw [hsplit, Option.map_some]

end Words

/-! ## The POSIX shell -/

/-- The characters that are to be quoted to stand for themselves, and those that may have to be. -/
def posixSpecial (c : Char) : Bool := "|&;<>()$`\n*?[#~=%".toList.contains c

/-- The characters that expand in double quotes. -/
def posixExpands (c : Char) : Bool := c == '$' || c == '`'

/-- **The words a POSIX shell cuts a command into**, where its quoting rules alone decide. -/
def shellSplit (command : String) : Option (List String) :=
  (splitWords posixSpecial posixExpands .plain false command.toList).map (List.map String.ofList)

example : shellSplit "a 'b $c' \"d\\\"\"e ''" = some ["a", "b $c", "d\"e", ""] := by decide

/-- The quoted command of a list of words. -/
def quotedCommand (words : List String) : String :=
  " ".intercalate (words.map fun word => "'" ++ word ++ "'")

theorem toList_quotedCommand (words : List String) :
    (quotedCommand words).toList = quoteAll (words.map String.toList) := by
  rw [quotedCommand, String.toList_intercalate, quoteAll, List.map_map, List.map_map]
  refine congrArg _ (List.map_congr_left fun word _ => ?_)
  simp [quote]

/-- **Quoted words are the words of their command exactly if no quote stands in one of them.** -/
theorem shellSplit_quotedCommand_iff (words : List String) :
    shellSplit (quotedCommand words) = some words ↔ ∀ word ∈ words, '\'' ∉ word.toList := by
  have hiff : splitWords posixSpecial posixExpands .plain false (quoteAll (words.map String.toList))
        = some (words.map String.toList) ↔ ∀ word ∈ words, '\'' ∉ word.toList :=
    (splitWords_quoteAll_iff _).trans List.forall_mem_map
  rw [shellSplit, toList_quotedCommand, ← hiff]
  constructor
  · intro h
    obtain ⟨chars, hsplit, rfl⟩ := Option.map_eq_some_iff.mp h
    rw [hsplit, List.map_map]
    exact congrArg some (List.map_id'' (fun word => String.toList_ofList) chars).symm
  · intro h
    rw [h, Option.map_some, List.map_map]
    exact congrArg some (List.map_id'' (fun word => String.ofList_toList) words)

end ChiNettest
