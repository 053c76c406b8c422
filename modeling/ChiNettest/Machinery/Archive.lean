import Mathlib.Algebra.Group.Nat.Defs
import Mathlib.Data.List.Basic

/-!
# Machinery/Archive — one function that both saves and loads

    Ar α  =  Archive → Option (α × Archive)

An archive is being written or being read.  A processor `p : α → Ar α` stands for `ar(x)` on an
lvalue of type `α`: a saving archive takes the bytes of the value it is given and leaves it alone, a
loading archive takes bytes off its input and returns what the lvalue holds afterwards.

`Transmits p bytes land` says what a processor puts on the wire and what becomes of an object the
bytes are loaded *into*: `land a prior`.  A `Codec` — the archive's own treatment of a type —
overwrites (`Codec.transmits`); a vector is resized and its elements are loaded in place, so it
lands element by element on whatever the resize left there (`Transmits.vec`).
-/

namespace ChiNettest

/-! ## Vectors -/

/-- A `std::vector`, or the bytes of a `std::string`: its size is a `size_t`. -/
abbrev Vec (α : Type) : Type := { l : List α // l.length < 2 ^ 64 }

namespace Vec

variable {α : Type}

/-- `size()` -/
def size (v : Vec α) : UInt64 := UInt64.ofNat v.1.length

theorem toNat_size (v : Vec α) : v.size.toNat = v.1.length :=
  UInt64.toNat_ofNat_of_lt' v.2

/-- What `resize` keeps of a list, its new elements `fresh`. -/
def resized (fresh : α) (n : ℕ) (l : List α) : List α :=
  l.take n ++ List.replicate (n - l.length) fresh

@[simp] theorem length_resized (fresh : α) (n : ℕ) (l : List α) :
    (resized fresh n l).length = n := by
  rw [resized, List.length_append, List.length_take, List.length_replicate]
  omega

@[simp] theorem resized_length (fresh : α) (l : List α) : resized fresh l.length l = l := by
  simp [resized]

/-- An index a resize covers holds what was there, or a fresh element. -/
theorem getElem?_resized (fresh : α) {n i : ℕ} (hi : i < n) (l : List α) :
    (resized fresh n l)[i]? = some ((l[i]?).getD fresh) := by
  have htake : (l.take n).length = min n l.length := List.length_take
  by_cases hl : i < l.length
  · rw [resized, List.getElem?_append_left (by omega), List.getElem?_take_of_lt hi,
      List.getElem?_eq_getElem hl]
    rfl
  · have hnone : l[i]? = none := List.getElem?_eq_none (by omega)
    rw [resized, List.getElem?_append_right (by omega), hnone,
      List.getElem?_replicate_of_lt (by omega)]
    rfl

/-- `resize(n)`, the new elements value-initialised to `fresh`. -/
def resize (fresh : α) (n : UInt64) (v : Vec α) : Vec α :=
  ⟨resized fresh n.toNat v.1, by rw [length_resized]; exact n.toNat_lt⟩

/-- Resizing to the size of `w` depends on its length alone. -/
theorem resize_size (fresh : α) (w v : Vec α) :
    (v.resize fresh w.size).1 = resized fresh w.1.length v.1 :=
  congrArg (resized fresh · v.1) w.toNat_size

end Vec

/-! ## Archives -/

/-- The bytes written so far, or the bytes still to be read. -/
inductive Archive
  | saving (out : List UInt8)
  | loading (input : List UInt8)

/-- A computation on an archive: `none` is a load that runs out of bytes. -/
abbrev Ar (α : Type) : Type := StateT Archive Option α

/-- **How an archive treats a type**: the bytes of a value, read back off any longer input. -/
structure Codec (α : Type) where
  encode : α → List UInt8
  decode : List UInt8 → Option (α × List UInt8)
  decode_encode : ∀ a rest, decode (encode a ++ rest) = some (a, rest)

/-- **What a processor transmits**: saving `a` writes `bytes a`, and loading `bytes a` into `prior`
consumes them and leaves `land a prior`. -/
structure Transmits {α : Type} (p : α → Ar α) (bytes : α → List UInt8) (land : α → α → α) :
    Prop where
  save : ∀ a out, p a (.saving out) = some (a, .saving (out ++ bytes a))
  load : ∀ a prior rest, p prior (.loading (bytes a ++ rest)) = some (land a prior, .loading rest)

section Processors

variable {α β : Type}

/-- What a computation leaves is what the rest of a composite goes on with. -/
theorem Ar.bind_of_some {x : Ar α} {ar ar' : Archive} {a : α} (h : x ar = some (a, ar'))
    (f : α → Ar β) : (x >>= f) ar = f a ar' := by
  change (x ar).bind _ = _
  rw [h]
  rfl

/-- `ar(x)` on an lvalue of a type the archive knows. -/
def Codec.field (c : Codec α) (a : α) : Ar α
  | .saving out => some (a, .saving (out ++ c.encode a))
  | .loading input => (c.decode input).map fun r => (r.1, .loading r.2)

/-- The archive's own types are overwritten by a load. -/
theorem Codec.transmits (c : Codec α) : Transmits c.field c.encode fun a _ => a where
  save _ _ := rfl
  load a _ rest := by rw [field, c.decode_encode]; rfl

namespace Transmits

variable {p : α → Ar α} {bytes : α → List UInt8} {land : α → α → α}

/-- Saving, then the rest of a composite. -/
theorem save_bind (h : Transmits p bytes land) (a : α) (out : List UInt8) (f : α → Ar β) :
    (p a >>= f) (.saving out) = f a (.saving (out ++ bytes a)) :=
  Ar.bind_of_some (h.save a out) f

/-- Loading, then the rest of a composite. -/
theorem load_bind (h : Transmits p bytes land) (a prior : α) (rest : List UInt8) (f : α → Ar β) :
    (p prior >>= f) (.loading (bytes a ++ rest)) = f (land a prior) (.loading rest) :=
  Ar.bind_of_some (h.load a prior rest) f

end Transmits

/-! ## Vectors of processed elements -/

/-- A list no longer and no shorter than `l`. -/
abbrev SameLength (l : List α) : Type := { l' : List α // l'.length = l.length }

/-- The elements of a vector, processed in place. -/
def processAll (p : α → Ar α) : (l : List α) → Ar (SameLength l)
  | [] => pure ⟨[], rfl⟩
  | a :: l => do
    let b ← p a
    let ⟨l', hl'⟩ ← processAll p l
    return ⟨b :: l', congrArg (· + 1) hl'⟩

/-- `for (auto &e : v) ar(e);` -/
def processElems (p : α → Ar α) (v : Vec α) : Ar (Vec α) := do
  let l ← processAll p v.1
  return ⟨l.1, Nat.lt_of_le_of_lt (Nat.le_of_eq l.2) v.2⟩

/-- **`ar(v)` on a vector**: its size, then its elements.  Loading resizes the vector to the size
read, and loads each element where it stands; a vector resized to its own size, which is what saving
does, stays as it is.

The repository leaves this to cereal, which is not part of it; this is cereal's documented treatment
of vectors. -/
def processVec (sizeTag : Codec UInt64) (fresh : α) (p : α → Ar α) (v : Vec α) : Ar (Vec α) := do
  let n ← sizeTag.field v.size
  processElems p (v.resize fresh n)

/-- The bytes of a vector. -/
def vecBytes (sizeTag : Codec UInt64) (bytes : α → List UInt8) (v : Vec α) : List UInt8 :=
  sizeTag.encode v.size ++ v.1.flatMap bytes

/-- What a vector leaves of the one it is loaded into. -/
def vecLand (fresh : α) (land : α → α → α) (v prior : Vec α) : Vec α :=
  ⟨v.1.zipWith land (Vec.resized fresh v.1.length prior.1), by
    rw [List.length_zipWith, Vec.length_resized, Nat.min_self]; exact v.2⟩

namespace Transmits

variable {p : α → Ar α} {bytes : α → List UInt8} {land : α → α → α}

theorem save_all (h : Transmits p bytes land) : ∀ (l : List α) (out : List UInt8),
    processAll p l (.saving out) = some (⟨l, rfl⟩, .saving (out ++ l.flatMap bytes))
  | [], out => by rw [List.flatMap_nil, List.append_nil]; rfl
  | a :: l, out => by
      rw [processAll, h.save_bind, Ar.bind_of_some (save_all h l _), List.flatMap_cons,
        ← List.append_assoc]
      rfl

theorem load_all (h : Transmits p bytes land) :
    ∀ (l prior : List α) (rest : List UInt8), l.length = prior.length →
      ∃ hl, processAll p prior (.loading (l.flatMap bytes ++ rest))
        = some (⟨l.zipWith land prior, hl⟩, .loading rest)
  | [], [], rest, _ => ⟨rfl, rfl⟩
  | a :: l, b :: prior, rest, hlen => by
      obtain ⟨hl, hall⟩ := load_all h l prior rest (Nat.succ.inj hlen)
      refine ⟨congrArg (· + 1) hl, ?_⟩
      rw [processAll, List.flatMap_cons, List.append_assoc, h.load_bind, Ar.bind_of_some hall]
      rfl

/-- **A vector transmits its elements**, in order, onto the elements its resize left. -/
theorem vec (h : Transmits p bytes land) (sizeTag : Codec UInt64) (fresh : α) :
    Transmits (processVec sizeTag fresh p) (vecBytes sizeTag bytes) (vecLand fresh land) where
  save v out := by
    have hsame : v.resize fresh v.size = v :=
      Subtype.ext (by rw [Vec.resize_size, Vec.resized_length])
    rw [processVec, sizeTag.transmits.save_bind, hsame, processElems,
      Ar.bind_of_some (h.save_all v.1 _), vecBytes, ← List.append_assoc]
    rfl
  load v prior rest := by
    have hsize := Vec.resize_size fresh v prior
    obtain ⟨hl, hall⟩ := h.load_all v.1 (prior.resize fresh v.size).1 rest (by
      rw [hsize, Vec.length_resized])
    rw [processVec, vecBytes, List.append_assoc, sizeTag.transmits.load_bind, processElems,
      Ar.bind_of_some hall]
    refine congrArg (fun w => some (w, Archive.loading rest)) (Subtype.ext ?_)
    exact congrArg (v.1.zipWith land) hsize

end Transmits

end Processors

/-! ## Formats -/

/-- **An archive**, by how it treats the types it knows. -/
structure Format where
  u32 : Codec UInt32
  u64 : Codec UInt64
  string : Codec (Vec UInt8)
  /-- the size tag of a vector -/
  sizeTag : Codec UInt64

/-- The `w` low bytes of a number, the lowest first. -/
def leBytes : ℕ → ℕ → List UInt8
  | 0, _ => []
  | w + 1, n => UInt8.ofNat n :: leBytes w (n / 256)

/-- The number a list of bytes spells, the lowest first. -/
def ofLeBytes : List UInt8 → ℕ
  | [] => 0
  | b :: bs => b.toNat + 256 * ofLeBytes bs

@[simp] theorem length_leBytes : ∀ w n, (leBytes w n).length = w
  | 0, _ => rfl
  | w + 1, n => congrArg (· + 1) (length_leBytes w (n / 256))

theorem ofLeBytes_leBytes : ∀ {w n : ℕ}, n < 256 ^ w → ofLeBytes (leBytes w n) = n
  | 0, n, h => (Nat.lt_one_iff.mp h).symm
  | w + 1, n, h => by
      have hrest : n / 256 < 256 ^ w := Nat.div_lt_of_lt_mul (by rwa [← Nat.pow_succ'])
      have hbyte : (UInt8.ofNat n).toNat = n % 256 := rfl
      rw [leBytes, ofLeBytes, ofLeBytes_leBytes hrest, hbyte, Nat.mod_add_div]

theorem ofLeBytes_lt : ∀ bs : List UInt8, ofLeBytes bs < 256 ^ bs.length
  | [] => Nat.one_pos
  | b :: bs => by
      have hrest := ofLeBytes_lt bs
      have hbyte := b.toNat_lt
      rw [ofLeBytes, List.length_cons, Nat.pow_succ]
      omega

/-- Bytes are those of the number they spell. -/
theorem leBytes_ofLeBytes : ∀ bs : List UInt8, leBytes bs.length (ofLeBytes bs) = bs
  | [] => rfl
  | b :: bs => by
      have hbyte := b.toNat_lt
      have hlow : UInt8.ofNat (b.toNat + 256 * ofLeBytes bs) = b := by
        rw [← UInt8.toNat_inj, UInt8.toNat_ofNat']
        omega
      have hhigh : (b.toNat + 256 * ofLeBytes bs) / 256 = ofLeBytes bs := by omega
      rw [List.length_cons, ofLeBytes, leBytes, hlow, hhigh, leBytes_ofLeBytes bs]

/-- The first `w` bytes of an input, as a number. -/
def takeLe (w : ℕ) (input : List UInt8) : Option (ℕ × List UInt8) :=
  if w ≤ input.length then some (ofLeBytes (input.take w), input.drop w) else none

theorem takeLe_leBytes {w n : ℕ} (h : n < 256 ^ w) (rest : List UInt8) :
    takeLe w (leBytes w n ++ rest) = some (n, rest) := by
  have hlen := length_leBytes w n
  rw [takeLe, if_pos (by simp), List.take_left' hlen, List.drop_left' hlen, ofLeBytes_leBytes h]

/-- A fixed-width word, lowest byte first. -/
def leWord {α : Type} (w : ℕ) (toNat : α → ℕ) (ofNat : ℕ → α) (hlt : ∀ a, toNat a < 256 ^ w)
    (hinv : ∀ a, ofNat (toNat a) = a) : Codec α where
  encode a := leBytes w (toNat a)
  decode input := (takeLe w input).map fun r => (ofNat r.1, r.2)
  decode_encode a rest := by rw [takeLe_leBytes (hlt a), Option.map_some, hinv]

/-- A 64-bit word in eight bytes. -/
def le64 : Codec UInt64 :=
  leWord 8 UInt64.toNat UInt64.ofNat (fun a => a.toNat_lt) fun _ => UInt64.ofNat_toNat

/-- A size, then that many bytes. -/
def leString : Codec (Vec UInt8) where
  encode v := le64.encode v.size ++ v.1
  decode input := (le64.decode input).bind fun r =>
    if r.1.toNat ≤ r.2.length then
      some (⟨r.2.take r.1.toNat,
        Nat.lt_of_le_of_lt (List.length_take_le _ _) r.1.toNat_lt⟩, r.2.drop r.1.toNat)
    else none
  decode_encode v rest := by
    have hsize := v.toNat_size
    rw [List.append_assoc, le64.decode_encode, Option.bind_some, if_pos (by simp [hsize])]
    refine congrArg some (Prod.ext (Subtype.ext ?_) ?_)
    · exact List.take_left' hsize.symm
    · exact List.drop_left' hsize.symm

/-- **The little-endian binary archive.** -/
def littleEndian : Format where
  u32 := leWord 4 UInt32.toNat UInt32.ofNat (fun a => a.toNat_lt) fun _ => UInt32.ofNat_toNat
  u64 := le64
  string := leString
  sizeTag := le64

end ChiNettest
