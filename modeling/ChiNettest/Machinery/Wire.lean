import ChiNettest.Machinery.Archive
import Mathlib.Logic.Equiv.Defs

/-!
# Machinery/Wire — what a loading archive accepts

`Transmits` says that what was saved is loaded.  `Parses` adds the converse: whatever a processor
loads starts with the bytes of some value, and is what that value lands as.  So an input is accepted
exactly if it starts with the bytes of a value (`Parses.accepts_iff`), no two values that land
differently share their bytes (`Transmits.unique`), and an input cut short is not accepted
(`Parses.truncated`).

A codec that is `Exact` parses its type; `both`, `along` and `processVec` carry that over to pairs,
to records and to vectors.
-/

namespace ChiNettest

section Wire

variable {α β : Type}

/-- **A codec decodes nothing but encodings.** -/
def Codec.Exact (c : Codec α) : Prop :=
  ∀ input a rest, c.decode input = some (a, rest) → input = c.encode a ++ rest

/-- **A processor loads what was saved and nothing else.** -/
structure Parses (p : α → Ar α) (bytes : α → List UInt8) (land : α → α → α) : Prop
    extends Transmits p bytes land where
  of_load : ∀ prior input b ar, p prior (.loading input) = some (b, ar) →
    ∃ a rest, input = bytes a ++ rest ∧ b = land a prior ∧ ar = .loading rest

/-- A composite that loads has loaded both its halves. -/
theorem Ar.of_bind_eq_some {x : Ar α} {f : α → Ar β} {ar ar' : Archive} {b : β}
    (h : (x >>= f) ar = some (b, ar')) :
    ∃ a ar₁, x ar = some (a, ar₁) ∧ f a ar₁ = some (b, ar') := by
  obtain ⟨⟨a, ar₁⟩, hx, hf⟩ := Option.bind_eq_some_iff.mp h
  exact ⟨a, ar₁, hx, hf⟩

theorem Ar.of_pure_eq_some {a b : α} {ar ar' : Archive}
    (h : (pure a : Ar α) ar = some (b, ar')) : a = b ∧ ar = ar' :=
  Prod.mk.inj (Option.some.inj h)

/-! ## What is accepted -/

section Accepted

variable {p : α → Ar α} {bytes : α → List UInt8} {land : α → α → α}

/-- **Where two values have the same bytes in front, they land alike** and leave the same rest. -/
theorem Transmits.unique (h : Transmits p bytes land) {a b : α} {rest rest' : List UInt8}
    (hbytes : bytes a ++ rest = bytes b ++ rest') :
    (∀ prior, land a prior = land b prior) ∧ rest = rest' := by
  have hland : ∀ prior, land a prior = land b prior ∧ rest = rest' := by
    intro prior
    have hload := h.load a prior rest
    rw [hbytes, h.load b prior rest'] at hload
    obtain ⟨hvalue, hrest⟩ := Prod.mk.inj (Option.some.inj hload)
    exact ⟨hvalue.symm, (Archive.loading.inj hrest).symm⟩
  exact ⟨fun prior => (hland prior).1, (hland a).2⟩

/-- **An input is accepted exactly if it starts with the bytes of a value.** -/
theorem Parses.accepts_iff (h : Parses p bytes land) (prior : α) (input : List UInt8) :
    (p prior (.loading input)).isSome ↔ ∃ a, bytes a <+: input := by
  constructor
  · intro hsome
    obtain ⟨⟨b, ar⟩, hload⟩ := Option.isSome_iff_exists.mp hsome
    obtain ⟨a, rest, rfl, -, -⟩ := h.of_load prior input b ar hload
    exact ⟨a, List.prefix_append _ _⟩
  · rintro ⟨a, rest, rfl⟩
    rw [h.load]
    rfl

/-- **An input that ends before the bytes of a value do is not accepted.** -/
theorem Parses.truncated (h : Parses p bytes land) (prior a : α) {input more : List UInt8}
    (hmore : more ≠ []) (hbytes : bytes a = input ++ more) : p prior (.loading input) = none := by
  by_contra hload
  obtain ⟨⟨b, ar⟩, hload⟩ := Option.ne_none_iff_exists'.mp hload
  obtain ⟨a', rest, rfl, -, -⟩ := h.of_load prior input b ar hload
  have hsplit : bytes a ++ [] = bytes a' ++ (rest ++ more) := by
    rw [List.append_nil, hbytes, List.append_assoc]
  have hrest := (h.toTransmits.unique hsplit).2
  exact hmore (List.append_eq_nil_iff.mp hrest.symm).2

end Accepted

/-! ## Fields -/

/-- **An exact codec parses its type.** -/
theorem Codec.parses {c : Codec α} (hc : c.Exact) : Parses c.field c.encode fun a _ => a where
  toTransmits := c.transmits
  of_load prior input b ar h := by
    obtain ⟨⟨a, rest⟩, hdecode, hr⟩ := Option.map_eq_some_iff.mp h
    obtain ⟨rfl, rfl⟩ := Prod.mk.inj hr
    exact ⟨a, rest, hc input a rest hdecode, rfl, rfl⟩

/-- `ar((T)x)`: what is loaded is lost with the temporary. -/
def Codec.temporary (c : Codec α) (a : α) : Ar α := do
  let _temporary ← c.field a
  return a

theorem Codec.temporary_parses {c : Codec α} (hc : c.Exact) :
    Parses c.temporary c.encode fun _ prior => prior where
  save a out := by
    rw [temporary, c.transmits.save_bind]
    rfl
  load a prior rest := by
    rw [temporary, c.transmits.load_bind]
    rfl
  of_load prior input b ar h := by
    obtain ⟨_, ar₁, hfield, hpure⟩ := Ar.of_bind_eq_some h
    obtain ⟨a, rest, hinput, -, har⟩ := (Codec.parses hc).of_load prior input _ ar₁ hfield
    obtain ⟨rfl, rfl⟩ := Ar.of_pure_eq_some hpure
    exact ⟨a, rest, hinput, rfl, har⟩

/-! ## Records -/

/-- `ar(x, y)` -/
def both (p : α → Ar α) (q : β → Ar β) (x : α × β) : Ar (α × β) := do
  let a ← p x.1
  let b ← q x.2
  return (a, b)

/-- A type processed as one it corresponds to: a record, as the tuple of its members. -/
def along (e : α ≃ β) (p : β → Ar β) (x : α) : Ar α := do
  let b ← p (e x)
  return e.symm b

namespace Parses

variable {p : α → Ar α} {q : β → Ar β} {bytes : α → List UInt8} {bytes' : β → List UInt8}
  {land : α → α → α} {land' : β → β → β}

/-- **One after the other.** -/
theorem both (hp : Parses p bytes land) (hq : Parses q bytes' land') :
    Parses (ChiNettest.both p q) (fun x => bytes x.1 ++ bytes' x.2)
      (fun x prior => (land x.1 prior.1, land' x.2 prior.2)) where
  save x out := by
    rw [ChiNettest.both, hp.save_bind, hq.save_bind, ← List.append_assoc]
    rfl
  load x prior rest := by
    rw [ChiNettest.both, List.append_assoc, hp.load_bind, hq.load_bind]
    rfl
  of_load prior input y ar h := by
    obtain ⟨a, ar₁, ha, h⟩ := Ar.of_bind_eq_some h
    obtain ⟨b, ar₂, hb, h⟩ := Ar.of_bind_eq_some h
    obtain ⟨rfl, rfl⟩ := Ar.of_pure_eq_some h
    obtain ⟨x, rest, rfl, rfl, rfl⟩ := hp.of_load _ _ _ _ ha
    obtain ⟨x', rest', rfl, rfl, rfl⟩ := hq.of_load _ _ _ _ hb
    exact ⟨(x, x'), rest', (List.append_assoc _ _ _).symm, rfl, rfl⟩

/-- **A record parses as the tuple of its members does.** -/
theorem along (hq : Parses q bytes' land') (e : α ≃ β) :
    Parses (ChiNettest.along e q) (fun x => bytes' (e x))
      (fun x prior => e.symm (land' (e x) (e prior))) where
  save x out := by
    rw [ChiNettest.along, hq.save_bind]
    exact congrArg (fun y => some (y, _)) (e.symm_apply_apply x)
  load x prior rest := by
    rw [ChiNettest.along, hq.load_bind]
    rfl
  of_load prior input y ar h := by
    obtain ⟨b, ar₁, hb, h⟩ := Ar.of_bind_eq_some h
    obtain ⟨rfl, rfl⟩ := Ar.of_pure_eq_some h
    obtain ⟨x, rest, rfl, rfl, rfl⟩ := hq.of_load _ _ _ _ hb
    exact ⟨e.symm x, rest, by rw [e.apply_symm_apply], by rw [e.apply_symm_apply], rfl⟩

/-! ## Vectors -/

/-- The elements of a list, loaded in place, were saved as as many values. -/
theorem of_load_all (hp : Parses p bytes land) :
    ∀ (prior : List α) (input : List UInt8) (l' : SameLength prior) (ar : Archive),
      processAll p prior (.loading input) = some (l', ar) →
        ∃ (l : List α) (rest : List UInt8), l.length = prior.length ∧
          input = l.flatMap bytes ++ rest ∧ l'.1 = l.zipWith land prior ∧ ar = .loading rest
  | [], input, l', ar, h => by
      obtain ⟨rfl, rfl⟩ := Ar.of_pure_eq_some h
      exact ⟨[], input, rfl, rfl, rfl, rfl⟩
  | a :: prior, input, l', ar, h => by
      obtain ⟨b, ar₁, hb, h⟩ := Ar.of_bind_eq_some h
      obtain ⟨⟨bs, hbs⟩, ar₂, hall, h⟩ := Ar.of_bind_eq_some h
      obtain ⟨rfl, rfl⟩ := Ar.of_pure_eq_some h
      obtain ⟨x, rest, rfl, rfl, rfl⟩ := hp.of_load _ _ _ _ hb
      obtain ⟨l, rest', hlen, rfl, hl, rfl⟩ := of_load_all hp prior _ _ _ hall
      refine ⟨x :: l, rest', congrArg (· + 1) hlen, ?_, congrArg (land x a :: ·) hl, rfl⟩
      rw [List.flatMap_cons, List.append_assoc]

/-- **A vector parses as its elements do**, behind their number. -/
theorem vec (hp : Parses p bytes land) {sizeTag : Codec UInt64} (htag : sizeTag.Exact)
    (fresh : α) :
    Parses (processVec sizeTag fresh p) (vecBytes sizeTag bytes) (vecLand fresh land) where
  toTransmits := hp.toTransmits.vec sizeTag fresh
  of_load prior input v ar h := by
    obtain ⟨n, ar₁, hn, h⟩ := Ar.of_bind_eq_some h
    obtain ⟨_, rest, rfl, rfl, rfl⟩ := (Codec.parses htag).of_load _ _ _ _ hn
    obtain ⟨l', ar₂, hall, h⟩ := Ar.of_bind_eq_some h
    obtain ⟨rfl, rfl⟩ := Ar.of_pure_eq_some h
    obtain ⟨l, rest', hlen, rfl, hl, rfl⟩ := hp.of_load_all _ _ _ _ hall
    have hsize : l.length = n.toNat := hlen.trans (Vec.length_resized fresh n.toNat prior.1)
    have hlt : l.length < 2 ^ 64 := hsize ▸ n.toNat_lt
    have htagged : UInt64.ofNat l.length = n := by rw [hsize, UInt64.ofNat_toNat]
    refine ⟨⟨l, hlt⟩, rest', ?_, Subtype.ext ?_, rfl⟩
    · change _ = (sizeTag.encode (UInt64.ofNat l.length) ++ _) ++ _
      rw [htagged, List.append_assoc]
    · refine hl.trans ?_
      change l.zipWith land (Vec.resized fresh n.toNat prior.1)
        = l.zipWith land (Vec.resized fresh l.length prior.1)
      rw [hsize]

end Parses

end Wire

/-! ## Formats -/

/-- **An archive that loads nothing but what it saves**, of each type it knows. -/
structure Format.Exact (fmt : Format) : Prop where
  u32 : fmt.u32.Exact
  u64 : fmt.u64.Exact
  string : fmt.string.Exact
  sizeTag : fmt.sizeTag.Exact

/-- What `takeLe` takes are the bytes of the number. -/
theorem eq_of_takeLe {w n : ℕ} {input rest : List UInt8} (h : takeLe w input = some (n, rest)) :
    input = leBytes w n ++ rest ∧ n < 256 ^ w := by
  obtain ⟨hlen, hr⟩ := Option.ite_none_right_eq_some.mp h
  obtain ⟨rfl, rfl⟩ := Prod.mk.inj (Option.some.inj hr)
  have htake : (input.take w).length = w := List.length_take_of_le hlen
  have hbytes := leBytes_ofLeBytes (input.take w)
  have hlt := ofLeBytes_lt (input.take w)
  rw [htake] at hbytes hlt
  exact ⟨by rw [hbytes, List.take_append_drop], hlt⟩

/-- A word of `w` bytes is exact where the numbers of `w` bytes are its values. -/
theorem leWord_exact {α : Type} {w : ℕ} {toNat : α → ℕ} {ofNat : ℕ → α}
    (hlt : ∀ a, toNat a < 256 ^ w) (hinv : ∀ a, ofNat (toNat a) = a)
    (hsurj : ∀ n < 256 ^ w, toNat (ofNat n) = n) : (leWord w toNat ofNat hlt hinv).Exact := by
  intro input a rest h
  obtain ⟨⟨n, rest'⟩, htake, hr⟩ := Option.map_eq_some_iff.mp h
  obtain ⟨rfl, rfl⟩ := Prod.mk.inj hr
  obtain ⟨hinput, hn⟩ := eq_of_takeLe htake
  change input = leBytes w (toNat (ofNat n)) ++ rest'
  rw [hsurj n hn, hinput]

theorem le64_exact : le64.Exact :=
  leWord_exact _ _ fun _ hn => UInt64.toNat_ofNat_of_lt' hn

/-- A string is exact: its size is that of the bytes behind it. -/
theorem leString_exact : leString.Exact := by
  intro input v rest h
  obtain ⟨⟨n, rest'⟩, hsize, h⟩ := Option.bind_eq_some_iff.mp h
  obtain ⟨hlen, hr⟩ := Option.ite_none_right_eq_some.mp h
  obtain ⟨rfl, rfl⟩ := Prod.mk.inj (Option.some.inj hr)
  have htake : (rest'.take n.toNat).length = n.toNat := List.length_take_of_le hlen
  have hn : UInt64.ofNat (rest'.take n.toNat).length = n := by rw [htake, UInt64.ofNat_toNat]
  change input = (le64.encode (UInt64.ofNat (rest'.take n.toNat).length) ++ _) ++ _
  rw [hn, List.append_assoc, List.take_append_drop, le64_exact _ _ _ hsize]

/-- **The little-endian binary archive is exact.** -/
theorem littleEndian_exact : littleEndian.Exact where
  u32 := leWord_exact (fun a => a.toNat_lt) (fun _ => UInt32.ofNat_toNat)
    fun _ hn => UInt32.toNat_ofNat_of_lt' hn
  u64 := le64_exact
  string := leString_exact
  sizeTag := le64_exact

end ChiNettest
