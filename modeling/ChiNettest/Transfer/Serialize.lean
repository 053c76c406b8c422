import ChiNettest.Machinery.Bitfield
import ChiNettest.Rpc.Context

/-!
# Transfer/Serialize — the transfer message, saved and loaded by one function

`serialize` passes the archive `(size_t)data_`, a temporary.  Saving writes the address it holds;
loading stores the address read into the temporary and leaves `data_` alone.  So the message
transmits everything but the addresses (`SegmentedTransfer.serialize_transmits`), and loads back to
what was saved exactly where the object loaded into holds those addresses already
(`loadsBack_iff`).
-/

namespace ChiNettest

/-! ## The message -/

/-- `DT_EXPOSE` -/
def dtExpose (lib : HshmAny) : UInt32 := lib.bitOpt 0

/-- `DT_WRITE` -/
def dtWrite (lib : HshmAny) : UInt32 := lib.bitOpt 1 ||| dtExpose lib

/-- A segment of a transfer: how it is accessed, its address on its node, its size. -/
structure DataTransfer where
  flags : UInt32
  data : UInt64
  dataSize : UInt64
  deriving DecidableEq, Repr

namespace DataTransfer

/-- A value-initialised `DataTransfer`. -/
def valueInit : DataTransfer := ⟨0, 0, 0⟩

/-- `DataTransferBase::operator==` -/
def operatorEq (xfer other : DataTransfer) : Bool :=
  xfer.flags == other.flags && xfer.data == other.data && xfer.dataSize == other.dataSize

/-- `DataTransferBase::serialize`.  What is loaded into `(size_t)data_` is lost with the
temporary. -/
def serialize (ar : Format) (xfer : DataTransfer) : Ar DataTransfer := do
  let flags ← ar.u32.field xfer.flags
  let _temporary ← ar.u64.field xfer.data
  let dataSize ← ar.u64.field xfer.dataSize
  return { xfer with flags := flags, dataSize := dataSize }

theorem operatorEq_iff {xfer other : DataTransfer} : xfer.operatorEq other ↔ xfer = other := by
  obtain ⟨flags, data, dataSize⟩ := xfer
  obtain ⟨flags', data', dataSize'⟩ := other
  simp [operatorEq, and_assoc]

/-- The bytes of a segment. -/
def bytes (ar : Format) (xfer : DataTransfer) : List UInt8 :=
  ar.u32.encode xfer.flags ++ (ar.u64.encode xfer.data ++ ar.u64.encode xfer.dataSize)

/-- The segment a load leaves: flags and size as saved, the address as it was. -/
def land (xfer prior : DataTransfer) : DataTransfer := { xfer with data := prior.data }

/-- **A segment transmits its flags and its size.** -/
theorem serialize_transmits (ar : Format) : Transmits (serialize ar) (bytes ar) land where
  save xfer out := by
    rw [serialize, ar.u32.transmits.save_bind, ar.u64.transmits.save_bind,
      ar.u64.transmits.save_bind, bytes, List.append_assoc, List.append_assoc]
    rfl
  load xfer prior rest := by
    rw [serialize, bytes, List.append_assoc, ar.u32.transmits.load_bind, List.append_assoc,
      ar.u64.transmits.load_bind, ar.u64.transmits.load_bind]
    rfl

end DataTransfer

/-- A transfer of segments, with metadata. -/
structure SegmentedTransfer where
  retNode : NodeId
  bulk : Vec DataTransfer
  md : Vec UInt8
  deriving DecidableEq

namespace SegmentedTransfer

/-- `SegmentedTransfer::serialize` -/
def serialize (ar : Format) (xfer : SegmentedTransfer) : Ar SegmentedTransfer := do
  let retNode ← ar.u32.field xfer.retNode
  let md ← ar.string.field xfer.md
  let bulk ← processVec ar.sizeTag .valueInit (DataTransfer.serialize ar) xfer.bulk
  return ⟨retNode, bulk, md⟩

/-- The bytes of a message. -/
def bytes (ar : Format) (xfer : SegmentedTransfer) : List UInt8 :=
  ar.u32.encode xfer.retNode ++
    (ar.string.encode xfer.md ++ vecBytes ar.sizeTag (DataTransfer.bytes ar) xfer.bulk)

/-- The message a load leaves. -/
def land (xfer prior : SegmentedTransfer) : SegmentedTransfer :=
  { xfer with bulk := vecLand .valueInit DataTransfer.land xfer.bulk prior.bulk }

/-- **A message transmits everything but the addresses of its segments.** -/
theorem serialize_transmits (ar : Format) : Transmits (serialize ar) (bytes ar) land where
  save xfer out := by
    have hbulk := (DataTransfer.serialize_transmits ar).vec ar.sizeTag .valueInit
    rw [serialize, ar.u32.transmits.save_bind, ar.string.transmits.save_bind, hbulk.save_bind,
      bytes, List.append_assoc, List.append_assoc]
    rfl
  load xfer prior rest := by
    have hbulk := (DataTransfer.serialize_transmits ar).vec ar.sizeTag .valueInit
    rw [serialize, bytes, List.append_assoc, ar.u32.transmits.load_bind, List.append_assoc,
      ar.string.transmits.load_bind, hbulk.load_bind]
    rfl

/-- The segment an index of the object loaded into offers a load: the one it has there, or the
value-initialised one a resize appends. -/
def slot (prior : SegmentedTransfer) (i : ℕ) : DataTransfer :=
  (prior.bulk.1[i]?).getD .valueInit

/-- **Every segment lands on the slot of its index.** -/
theorem getElem?_land (xfer prior : SegmentedTransfer) (i : ℕ) :
    (xfer.land prior).bulk.1[i]? = (xfer.bulk.1[i]?).map fun a => a.land (prior.slot i) := by
  change (List.zipWith _ _ _)[i]? = _
  rw [List.getElem?_zipWith]
  rcases hi : xfer.bulk.1[i]? with _ | a
  · rfl
  · have hlt : i < xfer.bulk.1.length := (List.getElem?_eq_some_iff.mp hi).1
    rw [Vec.getElem?_resized _ hlt]
    rfl

theorem length_land (xfer prior : SegmentedTransfer) :
    (xfer.land prior).bulk.1.length = xfer.bulk.1.length := by
  change (List.zipWith _ _ _).length = _
  rw [List.length_zipWith, Vec.length_resized, Nat.min_self]

end SegmentedTransfer

/-! ## The round trip -/

/-- **Loading undoes saving**, into the object `prior`: the bytes written are read back, all of
them and no more, and give the same message with pairwise equal segments. -/
def LoadsBack (ar : Format) (xfer prior : SegmentedTransfer) : Prop :=
  ∃ out loaded, xfer.serialize ar (.saving []) = some (xfer, .saving out) ∧
    (∀ rest, prior.serialize ar (.loading (out ++ rest)) = some (loaded, .loading rest)) ∧
    loaded.retNode = xfer.retNode ∧ loaded.md = xfer.md ∧
    loaded.bulk.1.length = xfer.bulk.1.length ∧
    ∀ (i : ℕ) (a b : DataTransfer),
      xfer.bulk.1[i]? = some a → loaded.bulk.1[i]? = some b → a.operatorEq b

/-- What a message is loaded back as is determined: it lands on the object loaded into. -/
theorem loaded_eq_land {ar : Format} {xfer prior loaded : SegmentedTransfer} {out : List UInt8}
    (hsave : xfer.serialize ar (.saving []) = some (xfer, .saving out))
    (hload : ∀ rest, prior.serialize ar (.loading (out ++ rest)) = some (loaded, .loading rest)) :
    loaded = xfer.land prior := by
  have htransmits := SegmentedTransfer.serialize_transmits ar
  rw [htransmits.save, List.nil_append] at hsave
  have hout : xfer.bytes ar = out := Archive.saving.inj (Prod.mk.inj (Option.some.inj hsave)).2
  have hload := hload []
  rw [← hout, htransmits.load] at hload
  exact (Prod.mk.inj (Option.some.inj hload)).1.symm

/-- **When loading undoes saving**: every segment's address is the one the object loaded into holds
at that index, or null where it is shorter. -/
theorem loadsBack_iff (ar : Format) (xfer prior : SegmentedTransfer) :
    LoadsBack ar xfer prior ↔
      ∀ i a, xfer.bulk.1[i]? = some a → a.data = (prior.slot i).data := by
  have htransmits := SegmentedTransfer.serialize_transmits ar
  constructor
  · rintro ⟨out, loaded, hsave, hload, -, -, -, hbulk⟩ i a ha
    obtain rfl := loaded_eq_land hsave hload
    have hb : (xfer.land prior).bulk.1[i]? = some (a.land (prior.slot i)) := by
      rw [SegmentedTransfer.getElem?_land, ha, Option.map_some]
    have hequal := DataTransfer.operatorEq_iff.mp (hbulk i a (a.land (prior.slot i)) ha hb)
    have hdata : a.data = (a.land (prior.slot i)).data := congrArg DataTransfer.data hequal
    exact hdata
  · intro hdata
    refine ⟨xfer.bytes ar, xfer.land prior, htransmits.save xfer [], htransmits.load xfer prior,
      rfl, rfl, xfer.length_land prior, fun i a b ha hb => ?_⟩
    rw [SegmentedTransfer.getElem?_land, ha, Option.map_some] at hb
    rw [DataTransfer.operatorEq_iff, ← Option.some.inj hb, DataTransfer.land, ← hdata i a ha]

/-- One segment of four bytes at address `4096`. -/
def oneSegment : SegmentedTransfer :=
  ⟨1, ⟨[⟨dtWrite wordFlags, 4096, 4⟩], by decide⟩, ⟨[], by decide⟩⟩

/-- A message without segments. -/
def noSegment : SegmentedTransfer := ⟨0, ⟨[], by decide⟩, ⟨[], by decide⟩⟩

/-- **Loaded into an empty message, the address is null.** -/
theorem not_loadsBack_oneSegment : ¬ LoadsBack littleEndian oneSegment noSegment := by
  rintro ⟨out, loaded, hsave, hload, -, -, -, hbulk⟩
  obtain rfl := loaded_eq_land hsave hload
  exact absurd (hbulk 0 ⟨dtWrite wordFlags, 4096, 4⟩ ⟨dtWrite wordFlags, 0, 4⟩ rfl rfl) (by decide)

end ChiNettest
