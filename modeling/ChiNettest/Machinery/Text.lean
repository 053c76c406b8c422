import Mathlib.Algebra.Group.Int.Defs
import Mathlib.Algebra.Group.Nat.Defs
import Mathlib.Data.List.Basic
import Mathlib.Data.List.Induction
import Mathlib.Data.List.TakeWhile

/-!
# Machinery/Text — words split at a separator, decimal numerals

`List.splitOn` cuts a word at every separator: one part more than there are separators, the rest of
the word in the parts (`length_splitOn`, `exists_mem_splitOn`).

A `Numeral` is a non-empty word of digits without a superfluous leading zero: what `Nat.toDigits 10`
writes (`numeral_toDigits`), and what its own value is written as (`Numeral.toDigits_value`).

Numbers joined by a separator that is no digit can be read back (`joinNumbers_inj`).

`atoi` reads the longest signed decimal prefix of a word, as C does; of a numeral it reads the
number written (`atoi_toDigits`).
-/

namespace ChiNettest

/-! ## Parts -/

/-- Splitting leaves one part more than there are separators. -/
theorem length_splitOn {α : Type*} [BEq α] (a : α) :
    ∀ l : List α, (l.splitOn a).length = l.count a + 1
  | [] => rfl
  | b :: l => by
      have ih := length_splitOn a l
      rw [List.splitOn_cons_eq_if_modifyHead, List.count_cons]
      split
      · rw [List.length_cons, ih]
      · rw [List.length_modifyHead, ih, Nat.add_zero]

/-- The parts hold what the word holds, its separators apart. -/
theorem exists_mem_splitOn {α : Type*} [BEq α] [LawfulBEq α] (a b : α) :
    ∀ l : List α, (∃ part ∈ l.splitOn a, b ∈ part) ↔ b ∈ l ∧ b ≠ a
  | [] => by simp
  | c :: l => by
      have ih := exists_mem_splitOn a b l
      rw [List.splitOn_cons_eq_if_modifyHead]
      by_cases hc : c = a
      · subst hc
        rw [if_pos (beq_self_eq_true c), List.mem_cons]
        simp only [List.mem_cons, exists_eq_or_imp, List.not_mem_nil, false_or, ih]
        exact ⟨fun h => ⟨.inr h.1, h.2⟩, fun h => ⟨h.1.resolve_left h.2, h.2⟩⟩
      · obtain ⟨part, parts, hparts⟩ := List.exists_cons_of_ne_nil (List.splitOn_ne_nil a l)
        rw [hparts] at ih ⊢
        rw [if_neg (by simpa using hc), List.modifyHead_cons]
        simp only [List.mem_cons, exists_eq_or_imp] at ih ⊢
        rw [or_assoc, ih]
        constructor
        · rintro (rfl | h)
          · exact ⟨.inl rfl, hc⟩
          · exact ⟨.inr h.1, h.2⟩
        · rintro ⟨rfl | h, hb⟩
          · exact .inl rfl
          · exact .inr ⟨h, hb⟩

/-- A separator that neither word holds ends both at once. -/
theorem append_cons_inj {α : Type*} {sep : α} :
    ∀ {x y r s : List α}, sep ∉ x → sep ∉ y → (x ++ sep :: r = y ++ sep :: s ↔ x = y ∧ r = s)
  | [], [], r, s, _, _ => by simp
  | [], b :: y, r, s, _, hy => by
      have hb : sep ≠ b := fun h => hy (h ▸ List.mem_cons_self)
      simp [hb]
  | a :: x, [], r, s, hx, _ => by
      have ha : a ≠ sep := fun h => hx (h ▸ List.mem_cons_self)
      simp [ha]
  | a :: x, b :: y, r, s, hx, hy => by
      have ih : x ++ sep :: r = y ++ sep :: s ↔ x = y ∧ r = s :=
        append_cons_inj (fun h => hx (List.mem_cons_of_mem a h))
          (fun h => hy (List.mem_cons_of_mem b h))
      rw [List.cons_append, List.cons_append, List.cons.injEq, List.cons.injEq, ih, and_assoc]

/-! ## Lines -/

/-- The lines of a text whose every line is terminated. -/
def linesOf {α : Type*} [BEq α] (nl : α) (text : List α) : List (List α) :=
  (text.splitOn nl).dropLast

/-- **A text has the lines it was written with.** -/
theorem linesOf_flatMap {α : Type*} [BEq α] [LawfulBEq α] {nl : α} :
    ∀ {lines : List (List α)}, (∀ line ∈ lines, nl ∉ line) →
      linesOf nl (lines.flatMap (· ++ [nl])) = lines
  | [], _ => rfl
  | line :: lines, h => by
      have hrest : linesOf nl (lines.flatMap (· ++ [nl])) = lines :=
        linesOf_flatMap fun l hl => h l (List.mem_cons_of_mem line hl)
      rw [List.flatMap_cons, List.append_assoc, List.singleton_append, linesOf,
        List.splitOn_append_cons_self_of_not_mem (h line List.mem_cons_self),
        List.dropLast_cons_of_ne_nil (List.splitOn_ne_nil nl _)]
      exact congrArg (line :: ·) hrest

/-! ## Numerals -/

/-- The value of a word of digits. -/
def decimalValue (cs : List Char) : ℕ := Nat.ofDigitChars 10 cs 0

/-- **A decimal numeral**: digits, at least one, the first not a zero unless it is the only one. -/
structure Numeral (cs : List Char) : Prop where
  ne_nil : cs ≠ []
  digits : ∀ c ∈ cs, c.isDigit = true
  lead : cs.head? = some '0' → cs = ['0']

instance (cs : List Char) : Decidable (Numeral cs) :=
  decidable_of_iff (cs ≠ [] ∧ cs.all Char.isDigit ∧ (cs.head? = some '0' → cs = ['0']))
    ⟨fun ⟨hne, hdigits, hlead⟩ => ⟨hne, List.all_eq_true.mp hdigits, hlead⟩,
      fun ⟨hne, hdigits, hlead⟩ => ⟨hne, List.all_eq_true.mpr hdigits, hlead⟩⟩

@[simp] theorem decimalValue_toDigits (n : ℕ) : decimalValue (Nat.toDigits 10 n) = n :=
  Nat.ofDigitChars_ten_toDigits

theorem decimalValue_concat (cs : List Char) (c : Char) :
    decimalValue (cs ++ [c]) = 10 * decimalValue cs + (c.toNat - '0'.toNat) := by
  rw [decimalValue, Nat.ofDigitChars_append, Nat.ofDigitChars_cons, Nat.ofDigitChars_nil]
  rfl

/-- A digit is the numeral of its own value. -/
theorem toDigits_digit {c : Char} (h : c.isDigit = true) :
    c.toNat - '0'.toNat < 10 ∧ Nat.toDigits 10 (c.toNat - '0'.toNat) = [c] := by
  obtain ⟨hlow, hhigh⟩ := Char.isDigit_iff_toNat.mp h
  have hzero : '0'.toNat = 48 := rfl
  have hnine : '9'.toNat = 57 := rfl
  have hlt : c.toNat - '0'.toNat < 10 := by omega
  refine ⟨hlt, ?_⟩
  rw [Nat.toDigits_of_lt_base hlt, List.cons.injEq]
  refine ⟨Char.toNat_inj.mp ?_, rfl⟩
  rw [Nat.toNat_digitChar_of_lt_ten hlt]
  omega

/-- A longer numeral starts with a numeral, and that with no zero. -/
theorem Numeral.of_concat {cs : List Char} {c : Char} (h : Numeral (cs ++ [c])) (hnil : cs ≠ []) :
    Numeral cs ∧ cs.head? ≠ some '0' := by
  have hlead : cs.head? ≠ some '0' := by
    intro hzero
    have hall := h.lead (by rw [List.head?_append_of_ne_nil _ hnil, hzero])
    have hlen := congrArg List.length hall
    simp only [List.length_append, List.length_cons, List.length_nil] at hlen
    exact hnil (List.length_eq_zero_iff.mp (by omega))
  exact ⟨⟨hnil, fun d hd => h.digits d (List.mem_append_left _ hd), fun hz => absurd hz hlead⟩,
    hlead⟩

/-- **A numeral is what its value is written as.** -/
theorem Numeral.toDigits_value {cs : List Char} (h : Numeral cs) :
    Nat.toDigits 10 (decimalValue cs) = cs := by
  induction cs using List.reverseRecOn with
  | nil => exact absurd rfl h.ne_nil
  | append_singleton cs c ih =>
    obtain ⟨hlt, hdigit⟩ := toDigits_digit (h.digits c (by simp))
    rw [decimalValue_concat]
    by_cases hnil : cs = []
    · subst hnil
      simpa [decimalValue] using hdigit
    · obtain ⟨hnumeral, hlead⟩ := h.of_concat hnil
      have hprefix : Nat.toDigits 10 (decimalValue cs) = cs := ih hnumeral
      have hpos : 0 < decimalValue cs := by
        refine Nat.pos_of_ne_zero fun hzero => hlead ?_
        rw [← hprefix, hzero, Nat.toDigits_zero]
        rfl
      rw [← Nat.toDigits_append_toDigits (by decide) hpos hlt, hprefix, hdigit]

/-- The digits of a positive number lead with no zero. -/
theorem head?_toDigits_ne_zero {n : ℕ} (h : 0 < n) : (Nat.toDigits 10 n).head? ≠ some '0' := by
  induction n using Nat.strongRecOn with
  | _ n ih =>
    by_cases hlt : n < 10
    · rw [Nat.toDigits_of_lt_base hlt, List.head?_cons, ne_eq, Option.some.injEq]
      intro hzero
      have hval := congrArg Char.toNat hzero
      rw [Nat.toNat_digitChar_of_lt_ten hlt] at hval
      have hcode : '0'.toNat = 48 := rfl
      omega
    · rw [Nat.toDigits_of_base_le (by decide) (Nat.not_lt.mp hlt),
        List.head?_append_of_ne_nil _ Nat.toDigits_ne_nil]
      exact ih (n / 10) (by omega) (by omega)

/-- **Numbers are written as numerals.** -/
theorem numeral_toDigits (n : ℕ) : Numeral (Nat.toDigits 10 n) where
  ne_nil := Nat.toDigits_ne_nil
  digits _ hc := Nat.isDigit_of_mem_toDigits (by decide) (by decide) hc
  lead hzero := by
    rcases Nat.eq_zero_or_pos n with rfl | hpos
    · exact Nat.toDigits_zero 10
    · exact absurd hzero (head?_toDigits_ne_zero hpos)

/-- What is no digit stands in no number. -/
theorem not_mem_toDigits {c : Char} (hc : c.isDigit = false) (n : ℕ) : c ∉ Nat.toDigits 10 n :=
  fun hmem => Bool.false_ne_true (hc.symm.trans ((numeral_toDigits n).digits c hmem))

/-- Numbers are told apart by their digits. -/
theorem toDigits_injective : Function.Injective (Nat.toDigits 10) :=
  Function.LeftInverse.injective decimalValue_toDigits

/-! ## Numbers joined by a separator -/

/-- Numbers, written one after the other with `sep` between them. -/
def joinNumbers (sep : Char) (ns : List ℕ) : List Char :=
  [sep].intercalate (ns.map (Nat.toDigits 10))

/-- The parts of numbers joined by no digit are the numbers. -/
theorem splitOn_joinNumbers {sep : Char} (hsep : sep.isDigit = false) {ns : List ℕ}
    (hns : ns ≠ []) : (joinNumbers sep ns).splitOn sep = ns.map (Nat.toDigits 10) := by
  refine List.splitOn_intercalate sep (fun part hpart hmem => ?_) (by simpa using hns)
  obtain ⟨n, -, rfl⟩ := List.mem_map.mp hpart
  exact not_mem_toDigits hsep n hmem

/-- **Numbers joined by no digit can be told apart.** -/
theorem joinNumbers_inj {sep : Char} (hsep : sep.isDigit = false) {ns ms : List ℕ} (hns : ns ≠ [])
    (hms : ms ≠ []) : joinNumbers sep ns = joinNumbers sep ms ↔ ns = ms := by
  refine ⟨fun h => ?_, fun h => h ▸ rfl⟩
  have hparts : ns.map (Nat.toDigits 10) = ms.map (Nat.toDigits 10) := by
    rw [← splitOn_joinNumbers hsep hns, ← splitOn_joinNumbers hsep hms, h]
  exact List.map_injective_iff.mpr toDigits_injective hparts

/-- **Nor is one of them taken for none.** -/
theorem joinNumbers_injective {sep : Char} (hsep : sep.isDigit = false) :
    Function.Injective (joinNumbers sep) := by
  have hnil : ∀ ns : List ℕ, joinNumbers sep ns = [] → ns = [] := by
    intro ns h
    by_contra hns
    have hparts := splitOn_joinNumbers hsep hns
    rw [h, List.splitOn_nil] at hparts
    have hmem : [] ∈ ns.map (Nat.toDigits 10) := hparts ▸ List.mem_singleton_self []
    obtain ⟨n, -, hn⟩ := List.mem_map.mp hmem
    exact Nat.toDigits_ne_nil hn
  intro ns ms h
  by_cases hns : ns = []
  · subst hns
    exact (hnil ms h.symm).symm
  · by_cases hms : ms = []
    · subst hms
      exact absurd (hnil ns h) hns
    · exact (joinNumbers_inj hsep hns hms).mp h

/-- Joined numbers hold digits and separators. -/
theorem not_mem_joinNumbers {sep c : Char} (hc : c.isDigit = false) (hsep : c ≠ sep) :
    ∀ ns : List ℕ, c ∉ joinNumbers sep ns
  | [] => List.not_mem_nil
  | [n] => by
      rw [joinNumbers, List.map_singleton, List.intercalate_singleton]
      exact not_mem_toDigits hc n
  | n :: m :: ns => by
      have hrest : c ∉ joinNumbers sep (m :: ns) := not_mem_joinNumbers hc hsep (m :: ns)
      have hjoin : joinNumbers sep (n :: m :: ns)
          = Nat.toDigits 10 n ++ ([sep] ++ joinNumbers sep (m :: ns)) := by
        simp [joinNumbers]
      rw [hjoin, List.mem_append, List.mem_append, List.mem_singleton]
      rintro (hmem | rfl | hmem)
      · exact not_mem_toDigits hc n hmem
      · exact hsep rfl
      · exact hrest hmem

/-! ## Reading a number as C does -/

/-- `isspace` in the C locale. -/
def isCSpace (c : Char) : Bool :=
  c == ' ' || c == '\t' || c == '\n' || c == '\x0b' || c == '\x0c' || c == '\r'

/-- The number a word of digits starts with, zero without one. -/
def leadingNumber (cs : List Char) : ℤ := decimalValue (cs.takeWhile Char.isDigit)

/-- The number `strtol` reads: white space is skipped, a sign is taken, and digits are read up to
the first other character. -/
def signedNumber (cs : List Char) : ℤ :=
  match cs.dropWhile isCSpace with
  | '-' :: rest => -leadingNumber rest
  | '+' :: rest => leadingNumber rest
  | rest => leadingNumber rest

/-- **`atoi`**: `none` where the number is no `int`, which C leaves undefined. -/
def atoi (cs : List Char) : Option ℤ :=
  if -2 ^ 31 ≤ signedNumber cs ∧ signedNumber cs < 2 ^ 31 then some (signedNumber cs) else none

/-- A word of digits is read whole: none of them is white space or a sign. -/
theorem signedNumber_of_digits {cs : List Char} (h : ∀ c ∈ cs, c.isDigit = true) :
    signedNumber cs = decimalValue cs := by
  have hall : cs.takeWhile Char.isDigit = cs := List.takeWhile_eq_self_iff.mpr h
  rcases cs with _ | ⟨c, cs⟩
  · rfl
  · have hc : c.isDigit = true := h c List.mem_cons_self
    have hspace : isCSpace c = false := by
      rw [Bool.eq_false_iff]
      intro hspace
      simp only [isCSpace, Bool.or_eq_true, beq_iff_eq] at hspace
      rcases hspace with ((((rfl | rfl) | rfl) | rfl) | rfl) | rfl <;> exact absurd hc (by decide)
    rw [signedNumber, List.dropWhile_cons_of_neg (by simp [hspace])]
    split
    · rename_i heq
      obtain rfl := (List.cons.inj heq).1
      exact absurd hc (by decide)
    · rename_i heq
      obtain rfl := (List.cons.inj heq).1
      exact absurd hc (by decide)
    · rw [leadingNumber, hall]

/-- **`atoi` reads back the number written.** -/
theorem atoi_toDigits {n : ℕ} (h : n < 2 ^ 31) : atoi (Nat.toDigits 10 n) = some (n : ℤ) := by
  rw [atoi, signedNumber_of_digits (numeral_toDigits n).digits, decimalValue_toDigits,
    if_pos ⟨by omega, by omega⟩]

end ChiNettest
