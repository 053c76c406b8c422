import ChiNettest.Transfer.Bulk
import ChiNettest.Types.Identifiers

/-!
# Transfer/Messages — every message the program can load, and no other input

The program saves and loads eleven types, each by one `serialize`.  A `Kind` names one of them, and
`Objects.parses` is about any sequence of kinds: what an archive loads as that sequence starts with
the bytes of such a sequence of objects, and leaves those objects, up to the addresses of segments.

`rpcTaskSubmit_eq_some_iff` puts it to use: the handler of `RpcTaskSubmit` runs on a body exactly if
the body starts with the bytes of a message, and what it then does is up to that message alone.
-/

namespace ChiNettest

/-! ## Queries -/

namespace DomainSelection

/-- What is written over all of the union is what it reads as. -/
theorem int_ofInt (value : UInt64) : (ofInt value).int = value := by
  have hlt : value.toNat < 256 ^ 8 := value.toNat_lt
  rw [int, ofInt, ofLeBytes_leBytes hlt, UInt64.ofNat_toNat]

/-- The union, as the number a load writes over all of it. -/
def members : DomainSelection ≃ UInt64 where
  toFun := int
  invFun := ofInt
  left_inv sel := int_inj.mp (int_ofInt sel.int)
  right_inv := int_ofInt

/-- **A selection is overwritten by a load.** -/
theorem serialize_parses {fmt : Format} (hfmt : fmt.Exact) :
    Parses (serialize fmt) (fun sel => fmt.u64.encode sel.int) fun sel _ => sel := by
  have hselection := (Codec.parses hfmt.u64).along members
  simp only [Equiv.symm_apply_apply] at hselection
  exact hselection

end DomainSelection

namespace DomainQuery

/-- The bytes of a query. -/
def bytes (lib : Hshm) (fmt : Format) (query : DomainQuery) : List UInt8 :=
  lib.bitfield.encode query.flags ++
    (fmt.u32.encode query.subId ++ fmt.u64.encode query.sel.int)

/-- The members of a query. -/
def members : DomainQuery ≃ UInt32 × UInt32 × DomainSelection where
  toFun query := (query.flags, query.subId, query.sel)
  invFun m := ⟨m.1, m.2.1, m.2.2⟩
  left_inv _ := rfl
  right_inv _ := rfl

/-- **A query is overwritten by a load.** -/
theorem serialize_parses {lib : Hshm} (hlib : lib.bitfield.Exact) {fmt : Format}
    (hfmt : fmt.Exact) :
    Parses (serialize lib fmt) (bytes lib fmt) fun query _ => query := by
  have heq : serialize lib fmt = along members
      (both lib.bitfield.field (both fmt.u32.field (DomainSelection.serialize fmt))) := by
    funext query
    simp [serialize, along, both, members]
  rw [heq]
  exact ((Codec.parses hlib).both
    ((Codec.parses hfmt.u32).both (DomainSelection.serialize_parses hfmt))).along members

end DomainQuery

namespace ResolvedDomainQuery

/-- The bytes of a resolved query. -/
def bytes (lib : Hshm) (fmt : Format) (query : ResolvedDomainQuery) : List UInt8 :=
  fmt.u32.encode query.node ++ query.dom.bytes lib fmt

/-- The members of a resolved query. -/
def members : ResolvedDomainQuery ≃ UInt32 × DomainQuery where
  toFun query := (query.node, query.dom)
  invFun m := ⟨m.1, m.2⟩
  left_inv _ := rfl
  right_inv _ := rfl

/-- **A resolved query is overwritten by a load.** -/
theorem serialize_parses {lib : Hshm} (hlib : lib.bitfield.Exact) {fmt : Format}
    (hfmt : fmt.Exact) :
    Parses (serialize lib fmt) (bytes lib fmt) fun query _ => query := by
  have heq : serialize lib fmt
      = along members (both fmt.u32.field (DomainQuery.serialize lib fmt)) := by
    funext query
    simp [serialize, along, both, members]
  rw [heq]
  exact ((Codec.parses hfmt.u32).both (DomainQuery.serialize_parses hlib hfmt)).along members

end ResolvedDomainQuery

/-! ## Transfers -/

namespace DataTransfer

/-- The members of a segment. -/
def members : DataTransfer ≃ UInt32 × UInt64 × UInt64 where
  toFun xfer := (xfer.flags, xfer.data, xfer.dataSize)
  invFun m := ⟨m.1, m.2.1, m.2.2⟩
  left_inv _ := rfl
  right_inv _ := rfl

/-- **A segment is overwritten by a load, up to its address.** -/
theorem serialize_parses {fmt : Format} (hfmt : fmt.Exact) :
    Parses (serialize fmt) (bytes fmt) land := by
  have heq : serialize fmt
      = along members (both fmt.u32.field (both fmt.u64.temporary fmt.u64.field)) := by
    funext xfer
    simp [serialize, along, both, Codec.temporary, members]
  rw [heq]
  exact ((Codec.parses hfmt.u32).both
    ((Codec.temporary_parses hfmt.u64).both (Codec.parses hfmt.u64))).along members

end DataTransfer

namespace SegmentedTransfer

/-- The members of a message, in the order they are saved in. -/
def members : SegmentedTransfer ≃ NodeId × Vec UInt8 × Vec DataTransfer where
  toFun xfer := (xfer.retNode, xfer.md, xfer.bulk)
  invFun m := ⟨m.1, m.2.2, m.2.1⟩
  left_inv _ := rfl
  right_inv _ := rfl

/-- **A message is overwritten by a load, up to the addresses of its segments.** -/
theorem serialize_parses {fmt : Format} (hfmt : fmt.Exact) :
    Parses (serialize fmt) (bytes fmt) land := by
  have heq : serialize fmt = along members (both fmt.u32.field (both fmt.string.field
      (processVec fmt.sizeTag .valueInit (DataTransfer.serialize fmt)))) := by
    funext xfer
    simp [serialize, along, both, members]
  rw [heq]
  exact ((Codec.parses hfmt.u32).both ((Codec.parses hfmt.string).both
    ((DataTransfer.serialize_parses hfmt).vec hfmt.sizeTag .valueInit))).along members

end SegmentedTransfer

/-! ## Sequences of objects -/

/-- **A type the program serializes.** -/
inductive Kind
  | uniqueId (type : ℤ)
  | createContext
  | subDomainId
  | domainId
  | domainSelection
  | subDomainIdRange
  | updateDomainInfo
  | domainQuery
  | resolvedDomainQuery
  | dataTransfer
  | segmentedTransfer
  deriving DecidableEq, Repr

namespace Kind

/-- The objects of a kind. -/
def Object : Kind → Type
  | uniqueId type => UniqueId type
  | createContext => CreateContext
  | subDomainId => SubDomainId
  | domainId => DomainId
  | domainSelection => DomainSelection
  | subDomainIdRange => SubDomainIdRange
  | updateDomainInfo => UpdateDomainInfo
  | domainQuery => DomainQuery
  | resolvedDomainQuery => ResolvedDomainQuery
  | dataTransfer => DataTransfer
  | segmentedTransfer => SegmentedTransfer

/-- The kinds whose objects hold addresses. -/
def HoldsAddresses (kind : Kind) : Prop := kind = dataTransfer ∨ kind = segmentedTransfer

/-- What a load leaves of an object, and of the one it was made into. -/
def land : (kind : Kind) → kind.Object → kind.Object → kind.Object
  | dataTransfer => DataTransfer.land
  | segmentedTransfer => SegmentedTransfer.land
  | uniqueId _ | createContext | subDomainId | domainId | domainSelection | subDomainIdRange
  | updateDomainInfo | domainQuery | resolvedDomainQuery => fun object _ => object

/-- A load leaves nothing of the object it is made into, unless that holds addresses. -/
theorem land_eq {kind : Kind} (h : ¬ kind.HoldsAddresses) (object prior : kind.Object) :
    kind.land object prior = object := by
  cases kind with
  | dataTransfer => exact absurd (.inl rfl) h
  | segmentedTransfer => exact absurd (.inr rfl) h
  | _ => rfl

section Archives

variable (lib : Hshm) (int : Codec Int32) (fmt : Format)

/-- `ar(object)` -/
def serialize : (kind : Kind) → kind.Object → Ar kind.Object
  | uniqueId _ => UniqueId.serialize fmt
  | createContext => CreateContext.serialize fmt
  | subDomainId => SubDomainId.serialize fmt
  | domainId => DomainId.serialize fmt
  | domainSelection => DomainSelection.serialize fmt
  | subDomainIdRange => SubDomainIdRange.serialize fmt
  | updateDomainInfo => UpdateDomainInfo.serialize int fmt
  | domainQuery => DomainQuery.serialize lib fmt
  | resolvedDomainQuery => ResolvedDomainQuery.serialize lib fmt
  | dataTransfer => DataTransfer.serialize fmt
  | segmentedTransfer => SegmentedTransfer.serialize fmt

/-- The bytes of an object. -/
def bytes : (kind : Kind) → kind.Object → List UInt8
  | uniqueId _ => UniqueId.bytes fmt
  | createContext => CreateContext.bytes fmt
  | subDomainId => SubDomainId.bytes fmt
  | domainId => DomainId.bytes fmt
  | domainSelection => fun sel => fmt.u64.encode sel.int
  | subDomainIdRange => SubDomainIdRange.bytes fmt
  | updateDomainInfo => UpdateDomainInfo.bytes int fmt
  | domainQuery => DomainQuery.bytes lib fmt
  | resolvedDomainQuery => ResolvedDomainQuery.bytes lib fmt
  | dataTransfer => DataTransfer.bytes fmt
  | segmentedTransfer => SegmentedTransfer.bytes fmt

variable {lib int fmt}

/-- **Every kind parses.** -/
theorem parses (hlib : lib.bitfield.Exact) (hint : int.Exact) (hfmt : fmt.Exact) :
    ∀ kind : Kind, Parses (kind.serialize lib int fmt) (kind.bytes lib int fmt) kind.land
  | uniqueId _ => UniqueId.serialize_parses hfmt
  | createContext => CreateContext.serialize_parses hfmt
  | subDomainId => SubDomainId.serialize_parses hfmt
  | domainId => DomainId.serialize_parses hfmt
  | domainSelection => DomainSelection.serialize_parses hfmt
  | subDomainIdRange => SubDomainIdRange.serialize_parses hfmt
  | updateDomainInfo => UpdateDomainInfo.serialize_parses hint hfmt
  | domainQuery => DomainQuery.serialize_parses hlib hfmt
  | resolvedDomainQuery => ResolvedDomainQuery.serialize_parses hlib hfmt
  | dataTransfer => DataTransfer.serialize_parses hfmt
  | segmentedTransfer => SegmentedTransfer.serialize_parses hfmt

end Archives

end Kind

/-- Objects of the given kinds, one after the other. -/
def Objects : List Kind → Type
  | [] => Unit
  | kind :: kinds => kind.Object × Objects kinds

namespace Objects

/-- What a load leaves of objects, and of those it was made into. -/
def land : (kinds : List Kind) → Objects kinds → Objects kinds → Objects kinds
  | [], _, prior => prior
  | kind :: kinds, objects, prior =>
    (kind.land objects.1 prior.1, land kinds objects.2 prior.2)

/-- Without addresses, it is the objects that were saved. -/
theorem land_eq : ∀ (kinds : List Kind) (objects prior : Objects kinds),
    (∀ kind ∈ kinds, ¬ kind.HoldsAddresses) → land kinds objects prior = objects
  | [], _, _, _ => rfl
  | kind :: kinds, (object, objects), prior, h => by
      have hkind := Kind.land_eq (h kind List.mem_cons_self) object prior.1
      have hkinds := land_eq kinds objects prior.2 fun kind' hmem =>
        h kind' (List.mem_cons_of_mem _ hmem)
      exact congrArg₂ Prod.mk hkind hkinds

section Archives

variable (lib : Hshm) (int : Codec Int32) (fmt : Format)

/-- `ar(object); ...`, object by object -/
def serialize : (kinds : List Kind) → Objects kinds → Ar (Objects kinds)
  | [] => pure
  | kind :: kinds => both (kind.serialize lib int fmt) (serialize kinds)

/-- The bytes of objects. -/
def bytes : (kinds : List Kind) → Objects kinds → List UInt8
  | [], _ => []
  | kind :: kinds, objects => kind.bytes lib int fmt objects.1 ++ bytes kinds objects.2

variable {lib int fmt}

/-- **Every sequence of objects parses.** -/
theorem parses (hlib : lib.bitfield.Exact) (hint : int.Exact) (hfmt : fmt.Exact) :
    ∀ kinds : List Kind, Parses (serialize lib int fmt kinds) (bytes lib int fmt kinds)
      (land kinds)
  | [] => {
      save := fun _ out => by rw [bytes, List.append_nil]; rfl
      load := fun _ _ _ => rfl
      of_load := fun _ input _ _ h => by
        obtain ⟨rfl, rfl⟩ := Ar.of_pure_eq_some h
        exact ⟨(), input, rfl, rfl, rfl⟩ }
  | kind :: kinds => (kind.parses hlib hint hfmt).both (parses hlib hint hfmt kinds)

end Archives

end Objects

/-- **What an archive carries**: objects of the given kinds, one after the other. -/
structure Carries (lib : Hshm) (int : Codec Int32) (fmt : Format) (kinds : List Kind) : Prop where
  /-- what was saved is loaded, and nothing else is -/
  parses : Parses (Objects.serialize lib int fmt kinds) (Objects.bytes lib int fmt kinds)
    (Objects.land kinds)
  /-- without addresses, objects are overwritten -/
  intact : (∀ kind ∈ kinds, ¬ kind.HoldsAddresses) → ∀ objects prior rest,
    Objects.serialize lib int fmt kinds prior
      (.loading (Objects.bytes lib int fmt kinds objects ++ rest)) = some (objects, .loading rest)
  /-- where one object ends is up to its bytes -/
  unique : ∀ objects objects' rest rest',
    Objects.bytes lib int fmt kinds objects ++ rest
        = Objects.bytes lib int fmt kinds objects' ++ rest' →
      (∀ prior, Objects.land kinds objects prior = Objects.land kinds objects' prior) ∧
        rest = rest'
  accepted : ∀ prior input, (Objects.serialize lib int fmt kinds prior (.loading input)).isSome ↔
    ∃ objects, Objects.bytes lib int fmt kinds objects <+: input
  truncated : ∀ prior objects input more, more ≠ [] →
    Objects.bytes lib int fmt kinds objects = input ++ more →
      Objects.serialize lib int fmt kinds prior (.loading input) = none

/-- **An exact archive carries objects of every kind, in every order.** -/
theorem carries_of_exact {lib : Hshm} (hlib : lib.bitfield.Exact) {int : Codec Int32}
    (hint : int.Exact) {fmt : Format} (hfmt : fmt.Exact) (kinds : List Kind) :
    Carries lib int fmt kinds where
  parses := Objects.parses hlib hint hfmt kinds
  intact hkinds objects prior rest := by
    rw [(Objects.parses hlib hint hfmt kinds).load, Objects.land_eq kinds objects prior hkinds]
  unique _ _ _ _ hbytes := (Objects.parses hlib hint hfmt kinds).toTransmits.unique hbytes
  accepted := (Objects.parses hlib hint hfmt kinds).accepts_iff
  truncated prior objects _ _ hmore hbytes :=
    (Objects.parses hlib hint hfmt kinds).truncated prior objects hmore hbytes

/-- An `int` in four bytes. -/
def leInt : Codec Int32 :=
  leWord 4 (fun a => a.toUInt32.toNat) (fun n => (UInt32.ofNat n).toInt32)
    (fun a => a.toUInt32.toNat_lt) fun _ => congrArg UInt32.toInt32 UInt32.ofNat_toNat

theorem leInt_exact : leInt.Exact :=
  leWord_exact _ _ fun _ hn => UInt32.toNat_ofNat_of_lt' hn

/-- A task's id, its message and its resolved domain, carried in the bytes of a little-endian
archive. -/
theorem carries_of_exact_littleEndian :
    Carries wordBits leInt littleEndian [.uniqueId 3, .segmentedTransfer, .resolvedDomainQuery] :=
  carries_of_exact littleEndian_exact.u32 leInt_exact littleEndian_exact _

/-! ## Requests -/

/-- A server gives every segment a buffer: what address it was loaded with is lost. -/
theorem SegmentedTransfer.allocateBulksServer_land (malloc : ℕ → UInt64 → UInt64)
    (xfer prior : SegmentedTransfer) :
    (xfer.land prior).allocateBulksServer malloc = xfer.allocateBulksServer malloc := by
  have hbulk : ((xfer.land prior).allocateBulksServer malloc).bulk
      = (xfer.allocateBulksServer malloc).bulk :=
    Subtype.ext (bulk_allocateBulksServer malloc xfer prior)
  exact congrArg (SegmentedTransfer.mk xfer.retNode · xfer.md) hbulk

/-- **The handler runs on a body exactly if the body starts with the bytes of a message**, and does
what it does with that message: nothing it loads into matters, nor what follows the message. -/
theorem rpcTaskSubmit_eq_some_iff (lib : HshmAny) {fmt : Format} (hfmt : fmt.Exact) (pull : Pull)
    (malloc : ℕ → UInt64 → UInt64) (nodeId : NodeId) (prior : SegmentedTransfer) (msg : IoMessage)
    (clientMem serverMem : Mem) (result : Except Exn ServerWrite) :
    rpcTaskSubmit lib fmt pull malloc nodeId prior msg clientMem serverMem = some result ↔
      ∃ xfer : SegmentedTransfer, xfer.bytes fmt <+: msg.body ∧
        result = ioCallServerWrite lib pull nodeId msg.bulk (xfer.allocateBulksServer malloc)
          clientMem serverMem := by
  have hparses := SegmentedTransfer.serialize_parses hfmt
  constructor
  · intro h
    obtain ⟨⟨loaded, ar⟩, hload, hresult⟩ := Option.bind_eq_some_iff.mp h
    obtain ⟨xfer, rest, hbody, rfl, -⟩ := hparses.of_load _ _ _ _ hload
    refine ⟨xfer, ⟨rest, hbody.symm⟩, ?_⟩
    rw [← Option.some.inj hresult, xfer.allocateBulksServer_land]
  · rintro ⟨xfer, ⟨rest, hbody⟩, rfl⟩
    have hload := hparses.load xfer prior rest
    rw [hbody] at hload
    rw [← xfer.allocateBulksServer_land malloc prior]
    change (prior.serialize fmt (.loading msg.body)).bind _ = _
    rw [hload]
    rfl

/-- A message with a segment to write, and a byte behind it: its buffers are allocated, and what the
client exposed is pulled into the first. -/
theorem rpcTaskSubmit_eq_some_mixedSegments :
    rpcTaskSubmit wordFlags littleEndian copyingPull pages 2 oneSegment
        ⟨some ⟨[⟨100, 2⟩], .readOnly⟩, mixedSegments.bytes littleEndian ++ [7], 2⟩ UInt8.ofNat
        (fun _ => 0)
      = some (ioCallServerWrite wordFlags copyingPull 2 (some ⟨[⟨100, 2⟩], .readOnly⟩)
          (mixedSegments.allocateBulksServer pages) UInt8.ofNat fun _ => 0) :=
  (rpcTaskSubmit_eq_some_iff wordFlags littleEndian_exact copyingPull pages 2 oneSegment _
    UInt8.ofNat _ _).mpr ⟨mixedSegments, List.prefix_append _ _, rfl⟩

end ChiNettest
