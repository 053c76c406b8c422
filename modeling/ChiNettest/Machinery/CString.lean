import Mathlib.Data.List.Basic
import Mathlib.Data.List.TakeWhile

/-!
# Machinery/CString — terminated strings in buffers

A C string is what stands in memory before the first terminator (`cString`); `strncpy` copies one
into the first `n` characters of a buffer and fills them up with terminators.  A string shorter than
`n` is copied whole (`strncpy_of_le`) and read back from whatever follows (`cString_of_terminated`).
-/

namespace ChiNettest

section CString

variable {α : Type*} [DecidableEq α] (nul : α)

/-- **The string a pointer to the first character of `mem` denotes**: `none` where `mem` ends before
a terminator. -/
def cString (mem : List α) : Option (List α) :=
  if nul ∈ mem then some (mem.takeWhile (· ≠ nul)) else none

/-- `strncpy(dst, src, n)`. -/
def strncpy (dst src : List α) (n : ℕ) : List α :=
  let chars := src.takeWhile (· ≠ nul)
  chars.take n ++ List.replicate (n - chars.length) nul ++ dst.drop n

variable {nul}

/-- A string without a terminator in it. -/
theorem takeWhile_of_not_mem {s : List α} (h : nul ∉ s) : s.takeWhile (· ≠ nul) = s :=
  List.takeWhile_eq_self_iff.mpr fun _ hc => decide_eq_true fun hnul => h (hnul ▸ hc)

/-- **A terminated string is read up to its terminator.** -/
theorem cString_of_terminated {s : List α} (h : nul ∉ s) (rest : List α) :
    cString nul (s ++ nul :: rest) = some s := by
  have hpos : ∀ c ∈ s, decide (c ≠ nul) = true := fun _ hc =>
    decide_eq_true fun hnul => h (hnul ▸ hc)
  rw [cString, if_pos (by simp), List.takeWhile_append_of_pos hpos,
    List.takeWhile_cons_of_neg (by simp), List.append_nil]

/-- **A string that fits is copied whole**, and the rest of the `n` characters is terminators. -/
theorem strncpy_of_le {dst src : List α} {n : ℕ} (h : nul ∉ src) (hlen : src.length ≤ n) :
    strncpy nul dst src n = src ++ List.replicate (n - src.length) nul ++ dst.drop n := by
  rw [strncpy, takeWhile_of_not_mem h, List.take_of_length_le hlen]

theorem length_strncpy {dst src : List α} {n : ℕ} (h : n ≤ dst.length) :
    (strncpy nul dst src n).length = dst.length := by
  simp only [strncpy, List.length_append, List.length_take, List.length_replicate, List.length_drop]
  omega

end CString

end ChiNettest
