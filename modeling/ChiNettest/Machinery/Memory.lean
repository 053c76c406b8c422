import Mathlib.Algebra.Ring.Nat
import Mathlib.Data.List.Forall2

/-!
# Machinery/Memory — gathering segments of one memory, scattering them over another

A memory is a function of addresses, a segment an address and a length.  `gather` reads a list of
segments into one stream of bytes, `scatter` lays a stream out over a list of segments, each at its
running offset.  Over segments of the same lengths, the second list disjoint, scattering what was
gathered copies segment onto segment (`map_read_scatter_gather`) and leaves every other address
alone (`scatter_frame`).
-/

namespace ChiNettest

/-- A byte-addressed memory. -/
abbrev Mem : Type := ℕ → UInt8

/-- A segment of memory. -/
structure Seg where
  addr : ℕ
  len : ℕ
  deriving DecidableEq, Repr

namespace Seg

/-- The addresses of a segment. -/
def Covers (s : Seg) (a : ℕ) : Prop := s.addr ≤ a ∧ a < s.addr + s.len

/-- Segments without a common address. -/
def Disjoint (s t : Seg) : Prop := ∀ a, s.Covers a → ¬ t.Covers a

theorem Disjoint.symm {s t : Seg} (h : s.Disjoint t) : t.Disjoint s :=
  fun a ht hs => h a hs ht

/-- Segments one of which ends where the other starts, or before. -/
theorem disjoint_of_le {s t : Seg} (h : s.addr + s.len ≤ t.addr) : s.Disjoint t :=
  fun _ hs ht => absurd (Nat.lt_of_lt_of_le hs.2 h) (Nat.not_lt.mpr ht.1)

end Seg

namespace Mem

/-- The bytes of a segment. -/
def read (m : Mem) (s : Seg) : List UInt8 := (List.range' s.addr s.len).map m

/-- The memory with `bytes` written from `addr` on. -/
def writeAt (m : Mem) (addr : ℕ) (bytes : List UInt8) : Mem := fun a =>
  if addr ≤ a then (bytes[a - addr]?).getD (m a) else m a

/-- The bytes of a list of segments, one after the other. -/
def gather (m : Mem) (segs : List Seg) : List UInt8 := segs.flatMap m.read

/-- The memory with `bytes` laid out over the segments. -/
def scatter : List Seg → List UInt8 → Mem → Mem
  | [], _, m => m
  | s :: segs, bytes, m =>
    scatter segs (bytes.drop s.len) (m.writeAt s.addr (bytes.take s.len))

@[simp] theorem length_read (m : Mem) (s : Seg) : (m.read s).length = s.len := by
  rw [read, List.length_map, List.length_range']

theorem length_gather (m : Mem) (segs : List Seg) :
    (m.gather segs).length = (segs.map Seg.len).sum := by
  rw [gather, List.length_flatMap]
  exact congrArg List.sum (List.map_congr_left fun s _ => m.length_read s)

/-- Memories that agree on a segment read the same bytes. -/
theorem read_congr {m m' : Mem} {s : Seg} (h : ∀ a, s.Covers a → m a = m' a) :
    m.read s = m'.read s :=
  List.map_congr_left fun a ha => h a (List.mem_range'_1.mp ha)

/-- **A segment reads back what was written over it.** -/
theorem read_writeAt (m : Mem) {s : Seg} {bytes : List UInt8} (hlen : bytes.length = s.len) :
    (m.writeAt s.addr bytes).read s = bytes := by
  refine List.ext_getElem (by rw [length_read, hlen]) fun i hi hb => ?_
  rw [length_read] at hi
  have hindex : s.addr + i - s.addr = i := Nat.add_sub_cancel_left _ _
  simp only [read, List.getElem_map, List.getElem_range', Nat.one_mul, writeAt,
    Nat.le_add_right, if_true, hindex, List.getElem?_eq_getElem hb, Option.getD_some]

/-- A write reaches its own addresses only. -/
theorem writeAt_frame (m : Mem) {s : Seg} {bytes : List UInt8} (hlen : bytes.length ≤ s.len)
    {a : ℕ} (ha : ¬ s.Covers a) : m.writeAt s.addr bytes a = m a := by
  rw [writeAt]
  split
  · rename_i hle
    have hpast : bytes.length ≤ a - s.addr := by
      by_contra hlt
      exact ha ⟨hle, by omega⟩
    rw [List.getElem?_eq_none hpast, Option.getD_none]
  · rfl

/-- **Scattering leaves every address outside its segments alone.** -/
theorem scatter_frame : ∀ (segs : List Seg) (bytes : List UInt8) (m : Mem) {a : ℕ},
    (∀ s ∈ segs, ¬ s.Covers a) → scatter segs bytes m a = m a
  | [], _, _, _, _ => rfl
  | s :: segs, bytes, m, a, h => by
      rw [scatter, scatter_frame segs _ _ fun t ht => h t (List.mem_cons_of_mem s ht)]
      exact m.writeAt_frame (List.length_take_le _ _) (h s List.mem_cons_self)

/-- Scattering no bytes is no write. -/
theorem scatter_nil : ∀ (segs : List Seg) (m : Mem), scatter segs [] m = m
  | [], _ => rfl
  | s :: segs, m => by
      have hwrite : m.writeAt s.addr [] = m := by
        funext a
        simp [writeAt]
      rw [scatter, List.drop_nil, List.take_nil, hwrite, scatter_nil segs m]

/-- **Scattering what was gathered copies segment onto segment.** -/
theorem map_read_scatter_gather (m : Mem) : ∀ (src dst : List Seg) (m' : Mem),
    src.map Seg.len = dst.map Seg.len → dst.Pairwise Seg.Disjoint →
      dst.map (scatter dst (m.gather src) m').read = src.map m.read
  | [], [], _, _, _ => rfl
  | s :: src, t :: dst, m', hlen, hdisjoint => by
      obtain ⟨hst, hlen⟩ := List.cons.inj hlen
      obtain ⟨hhead, hdisjoint⟩ := List.pairwise_cons.mp hdisjoint
      have hread : (m.read s).length = t.len := (m.length_read s).trans hst
      have hsplit : scatter (t :: dst) (m.gather (s :: src)) m'
          = scatter dst (m.gather src) (m'.writeAt t.addr (m.read s)) := by
        rw [scatter, gather, List.flatMap_cons, List.take_left' hread, List.drop_left' hread]
        rfl
      have hkept : (scatter dst (m.gather src) (m'.writeAt t.addr (m.read s))).read t
          = (m'.writeAt t.addr (m.read s)).read t :=
        read_congr fun a ha => scatter_frame dst _ _ fun u hu => hhead u hu a ha
      rw [hsplit, List.map_cons, List.map_cons, hkept, m'.read_writeAt hread,
        map_read_scatter_gather m src dst _ hlen hdisjoint]

end Mem

/-! ## Selections of two lists at once -/

section Selection

variable {α β : Type*} {R : α → α → Prop} {p : α → Bool}

/-- Selecting by what related entries share gives related selections. -/
theorem map_filter_eq_of_forall₂ {f : α → β} (hp : ∀ a b, R a b → p a = p b)
    (hf : ∀ a b, R a b → f a = f b) {l l' : List α} (h : List.Forall₂ R l l') :
    (l.filter p).map f = (l'.filter p).map f := by
  induction h with
  | nil => rfl
  | @cons a b l l' hab _ ih =>
    rw [List.filter_cons, List.filter_cons, ← hp a b hab]
    split
    · rw [List.map_cons, List.map_cons, hf a b hab, ih]
    · exact ih

/-- Selections that agree entry by entry agree at every selected index. -/
theorem eq_of_map_filter_eq {f g : α → β} (hp : ∀ a b, R a b → p a = p b) {l l' : List α}
    (h : List.Forall₂ R l l') (heq : (l'.filter p).map g = (l.filter p).map f) :
    List.Forall₂ (fun a b => p a → g b = f a) l l' := by
  induction h with
  | nil => exact .nil
  | @cons a b l l' hab _ ih =>
    rw [List.filter_cons, List.filter_cons, ← hp a b hab] at heq
    split at heq
    · obtain ⟨hhead, htail⟩ := List.cons.inj heq
      exact .cons (fun _ => hhead) (ih htail)
    · rename_i hpa
      exact .cons (fun hpa' => absurd hpa' hpa) (ih heq)

end Selection

end ChiNettest
