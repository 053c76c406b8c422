import ChiNettest.Machinery.Bitfield

/-!
# Types/DomainQuery — what a `DomainQuery` takes over from the memory it is built in

`DomainSelection` is a union: the factories write its 32-bit members, or none, while equality, hash
and serialization read all 64 bits.  Whatever of the eight bytes a factory does not write is what
the memory held before (`drop_sel_build`), so its result depends on its arguments alone exactly
where two memories agree on those bytes (`argumentsDecide_iff`): always for `GetRange`, which writes
all eight.

`hshm` and `std::hash` are parameters.
-/

namespace ChiNettest

/-! ## What is not under the repository -/

/-- `std::hash`. -/
structure StdHash where
  u32 : UInt32 → UInt64
  u64 : UInt64 → UInt64

/-! ## Selections -/

/-- The eight bytes of the union `DomainSelection`. -/
abbrev DomainSelection : Type := { bytes : List UInt8 // bytes.length = 8 }

namespace DomainSelection

/-- `sel.int_` -/
def int (sel : DomainSelection) : UInt64 := UInt64.ofNat (ofLeBytes sel.1)

/-- The union with `int_` written. -/
def ofInt (int : UInt64) : DomainSelection := ⟨leBytes 8 int.toNat, length_leBytes 8 int.toNat⟩

/-- The union with a `u32` written over its first four bytes. -/
def setLow (sel : DomainSelection) (value : UInt32) : DomainSelection :=
  ⟨leBytes 4 value.toNat ++ sel.1.drop 4, by
    rw [List.length_append, length_leBytes, List.length_drop, sel.2]⟩

/-- The union with a `u32` written over its last four bytes. -/
def setHigh (sel : DomainSelection) (value : UInt32) : DomainSelection :=
  ⟨sel.1.take 4 ++ leBytes 4 value.toNat, by
    rw [List.length_append, length_leBytes, List.length_take, sel.2]; rfl⟩

/-- `sel.id_ = id` -/
def setId (sel : DomainSelection) (id : UInt32) : DomainSelection := sel.setLow id

/-- `sel.hash_ = hash` -/
def setHash (sel : DomainSelection) (hash : UInt32) : DomainSelection := sel.setLow hash

/-- `sel.range_.off_ = off; sel.range_.count_ = count` -/
def setRange (sel : DomainSelection) (off count : UInt32) : DomainSelection :=
  (sel.setLow off).setHigh count

/-- `DomainSelection::operator==`. -/
def operatorEq (sel other : DomainSelection) : Bool := sel.int == other.int

/-- `DomainSelection::serialize`. -/
def serialize (fmt : Format) (sel : DomainSelection) : Ar DomainSelection := do
  let int ← fmt.u64.field sel.int
  return ofInt int

/-- **`int_` is all of the union.** -/
theorem int_inj {sel sel' : DomainSelection} : sel.int = sel'.int ↔ sel = sel' := by
  refine ⟨fun h => Subtype.ext ?_, fun h => h ▸ rfl⟩
  have hread : ∀ s : DomainSelection, s.int.toNat = ofLeBytes s.1 := by
    intro s
    have hlt := ofLeBytes_lt s.1
    rw [s.2] at hlt
    exact UInt64.toNat_ofNat_of_lt' hlt
  have hvalue : ofLeBytes sel.1 = ofLeBytes sel'.1 := by rw [← hread, ← hread, h]
  rw [← leBytes_ofLeBytes sel.1, ← leBytes_ofLeBytes sel'.1, sel.2, sel'.2, hvalue]

/-- Past its eight bytes there is nothing left. -/
theorem drop_eight (sel : DomainSelection) : sel.1.drop 8 = [] :=
  List.drop_eq_nil_of_le (Nat.le_of_eq sel.2)

theorem operatorEq_iff {sel sel' : DomainSelection} : sel.operatorEq sel' = true ↔ sel = sel' := by
  rw [operatorEq, beq_iff_eq, int_inj]

end DomainSelection

/-! ## Queries -/

/-- The scheduling domain of a task. -/
structure DomainQuery where
  /-- `flags_.bits_` -/
  flags : UInt32
  subId : UInt32
  sel : DomainSelection
  deriving DecidableEq

namespace DomainQuery

/-- `DomainQuery::DomainQuery()` in memory that holds `prior`: the bit field is cleared, the other
members are left alone. -/
def construct (prior : DomainQuery) : DomainQuery := { prior with flags := 0 }

/-- `DomainQuery::operator==`. -/
def operatorEq (query other : DomainQuery) : Bool :=
  query.flags == other.flags && query.subId == other.subId && query.sel.operatorEq other.sel

/-- `DomainQuery::Hash`. -/
def hash (std : StdHash) (query : DomainQuery) : UInt64 :=
  std.u32 query.flags + std.u32 query.subId + std.u64 query.sel.int

/-- `DomainQuery::serialize`. -/
def serialize (lib : Hshm) (fmt : Format) (query : DomainQuery) : Ar DomainQuery := do
  let flags ← lib.bitfield.field query.flags
  let subId ← fmt.u32.field query.subId
  let sel ← query.sel.serialize fmt
  return ⟨flags, subId, sel⟩

/-- The members of `other`, assigned to a query one by one. -/
def takeMembers (query other : DomainQuery) : DomainQuery :=
  { query with flags := other.flags, subId := other.subId, sel := other.sel }

end DomainQuery

/-! ### Flags -/

section Flags

variable (lib : Hshm)

/-- The range flag of a query to this node. -/
def kLocal : UInt32 := lib.bitOpt 1

/-- The range flag of a query to one container. -/
def kDirect : UInt32 := lib.bitOpt 2

/-- The range flag of a query to a whole subdomain. -/
def kGlobal : UInt32 := lib.bitOpt 3

/-- The flag of a selection by `id_`. -/
def kId : UInt32 := lib.bitOpt 4

/-- The flag of a selection by `hash_`. -/
def kHash : UInt32 := lib.bitOpt 5

/-- The flag of a selection by `range_`. -/
def kRange : UInt32 := lib.bitOpt 6

/-- The flag of a broadcast. -/
def kBroadcast : UInt32 := lib.bitOpt 15

/-- `SubDomainId::kGlobalContainers`. -/
def kGlobalContainers : UInt32 := 1

end Flags

/-! ### Factories -/

namespace DomainQuery

variable (lib : Hshm) (prior : DomainQuery)

/-- What the factories share: a query built in memory that holds `prior`, its flags set and its
subdomain assigned, before the selection is. -/
def start (mask subId : UInt32) : DomainQuery :=
  let query := construct prior
  { query with flags := lib.setBits query.flags mask, subId := subId }

/-- `DomainQuery::GetLocalId`. -/
def getLocalId (subId id : UInt32) : DomainQuery :=
  let query := start lib prior (kLocal lib ||| kId lib) subId
  { query with sel := query.sel.setId id }

/-- `DomainQuery::GetGlobal`. -/
def getGlobal (subId iterFlags : UInt32) : DomainQuery :=
  start lib prior (kGlobal lib ||| iterFlags) subId

/-- `DomainQuery::GetRange`. -/
def getRange (subId off count iterFlags : UInt32) : DomainQuery :=
  let query := start lib prior (kGlobal lib ||| kRange lib ||| iterFlags) subId
  { query with sel := query.sel.setRange off count }

/-- `DomainQuery::GetGlobalBcast`. -/
def getGlobalBcast : DomainQuery :=
  start lib prior (kGlobal lib ||| kBroadcast lib) kGlobalContainers

/-- `DomainQuery::GetDirectId`. -/
def getDirectId (subId id iterFlags : UInt32) : DomainQuery :=
  let query := start lib prior (kDirect lib ||| kId lib ||| iterFlags) subId
  { query with sel := query.sel.setId id }

/-- `DomainQuery::GetDirectHash`. -/
def getDirectHash (subId hash iterFlags : UInt32) : DomainQuery :=
  let query := start lib prior (kDirect lib ||| kHash lib ||| iterFlags) subId
  { query with sel := query.sel.setHash hash }

end DomainQuery

/-- **A call of a factory.** -/
inductive Factory
  | localId (subId id : UInt32)
  | global (subId iterFlags : UInt32)
  | range (subId off count iterFlags : UInt32)
  | globalBcast
  | directId (subId id iterFlags : UInt32)
  | directHash (subId hash iterFlags : UInt32)
  deriving DecidableEq, Repr

namespace Factory

/-- The query the call returns, built in memory that holds `prior`. -/
def build (lib : Hshm) (prior : DomainQuery) : Factory → DomainQuery
  | localId subId id => .getLocalId lib prior subId id
  | global subId iterFlags => .getGlobal lib prior subId iterFlags
  | range subId off count iterFlags => .getRange lib prior subId off count iterFlags
  | globalBcast => .getGlobalBcast lib prior
  | directId subId id iterFlags => .getDirectId lib prior subId id iterFlags
  | directHash subId hash iterFlags => .getDirectHash lib prior subId hash iterFlags

/-- How many bytes of the selection the call writes, from the first on. -/
def written : Factory → ℕ
  | global .. | globalBcast => 0
  | localId .. | directId .. | directHash .. => 4
  | range .. => 8

/-- **The bytes of the selection the call does not write.** -/
def kept (f : Factory) (prior : DomainQuery) : List UInt8 := prior.sel.1.drop f.written

end Factory

/-! ## Copies -/

/-- The four ways a query is taken from another. -/
inductive Transfer
  | copyConstruct
  | copyAssign
  | moveConstruct
  | moveAssign
  deriving DecidableEq, Repr

namespace DomainQuery

/-- A query taken from `other`, its own memory holding `prior`.  The constructors start from a
constructed query, the assignments from the one that is there. -/
def transfer (prior other : DomainQuery) : Transfer → DomainQuery
  | .copyConstruct => (construct prior).takeMembers other
  | .copyAssign => prior.takeMembers other
  | .moveConstruct => (construct prior).takeMembers other
  | .moveAssign => prior.takeMembers other

/-- **A query taken from another is that query.** -/
theorem transfer_eq (prior other : DomainQuery) (t : Transfer) :
    prior.transfer other t = other := by
  cases t <;> rfl

end DomainQuery

/-- A resolved domain query. -/
structure ResolvedDomainQuery where
  node : UInt32
  dom : DomainQuery
  deriving DecidableEq

namespace ResolvedDomainQuery

/-- `ResolvedDomainQuery::ResolvedDomainQuery(node, dom)`: `dom_` is copy-constructed. -/
def construct (prior : ResolvedDomainQuery) (node : UInt32) (dom : DomainQuery) :
    ResolvedDomainQuery :=
  ⟨node, prior.dom.transfer dom .copyConstruct⟩

/-- A resolved query taken from `other`: `node_ = other.node_; dom_ = other.dom_`.  In a constructor
`dom_` is default-constructed first. -/
def transfer (prior other : ResolvedDomainQuery) : Transfer → ResolvedDomainQuery
  | .copyConstruct => ⟨other.node, prior.dom.construct.transfer other.dom .copyAssign⟩
  | .copyAssign => ⟨other.node, prior.dom.transfer other.dom .copyAssign⟩
  | .moveConstruct => ⟨other.node, prior.dom.construct.transfer other.dom .copyAssign⟩
  | .moveAssign => ⟨other.node, prior.dom.transfer other.dom .copyAssign⟩

/-- `ResolvedDomainQuery::serialize`. -/
def serialize (lib : Hshm) (fmt : Format) (query : ResolvedDomainQuery) :
    Ar ResolvedDomainQuery := do
  let node ← fmt.u32.field query.node
  let dom ← query.dom.serialize lib fmt
  return ⟨node, dom⟩

theorem construct_eq (prior : ResolvedDomainQuery) (node : UInt32) (dom : DomainQuery) :
    prior.construct node dom = ⟨node, dom⟩ := by
  rw [construct, DomainQuery.transfer_eq]

theorem transfer_eq (prior other : ResolvedDomainQuery) (t : Transfer) :
    prior.transfer other t = other := by
  cases t <;> rw [transfer, DomainQuery.transfer_eq]

end ResolvedDomainQuery

/-! ## Two runs -/

section TwoRuns

variable (lib : Hshm) (std : StdHash) (fmt : Format)

/-- What a processor writes of a value. -/
def savedBytes {α : Type} (p : α → Ar α) (a : α) : Option Archive :=
  (p a (.saving [])).map Prod.snd

/-- **Two queries no reader tells apart**: they are equal, hash alike and serialize alike. -/
structure SameValue (query query' : DomainQuery) : Prop where
  equal : query.operatorEq query' = true
  hash : query.hash std = query'.hash std
  bytes : savedBytes (DomainQuery.serialize lib fmt) query
    = savedBytes (DomainQuery.serialize lib fmt) query'

/-- Two resolved queries no reader tells apart. -/
structure SameResolved (query query' : ResolvedDomainQuery) : Prop where
  node : query.node = query'.node
  dom : SameValue lib std fmt query.dom query'.dom
  bytes : savedBytes (ResolvedDomainQuery.serialize lib fmt) query
    = savedBytes (ResolvedDomainQuery.serialize lib fmt) query'

/-- **The arguments of a call decide its result**, of the memories `prior` and `prior'`: the two
results are the same value, and so is what is taken from them, resolved or not, whatever the memory
it is taken to held. -/
structure ArgumentsDecide (f : Factory) (prior prior' : DomainQuery) : Prop where
  result : SameValue lib std fmt (f.build lib prior) (f.build lib prior')
  transferred : ∀ (t : Transfer) (mem mem' : DomainQuery), SameValue lib std fmt
    (mem.transfer (f.build lib prior) t) (mem'.transfer (f.build lib prior') t)
  resolved : ∀ (node : UInt32) (mem mem' : ResolvedDomainQuery), SameResolved lib std fmt
    (mem.construct node (f.build lib prior)) (mem'.construct node (f.build lib prior'))
  resolvedTransferred : ∀ (t : Transfer) (node : UInt32) (mem mem' dst dst' : ResolvedDomainQuery),
    SameResolved lib std fmt (dst.transfer (mem.construct node (f.build lib prior)) t)
      (dst'.transfer (mem'.construct node (f.build lib prior')) t)

variable {lib std fmt} {f : Factory} {prior prior' : DomainQuery}

theorem DomainQuery.operatorEq_iff {query query' : DomainQuery} :
    query.operatorEq query' = true ↔ query = query' := by
  obtain ⟨flags, subId, sel⟩ := query
  obtain ⟨flags', subId', sel'⟩ := query'
  simp [operatorEq, DomainSelection.operatorEq_iff, and_assoc]

theorem SameValue.refl (query : DomainQuery) : SameValue lib std fmt query query :=
  ⟨DomainQuery.operatorEq_iff.mpr rfl, rfl, rfl⟩

theorem SameResolved.refl (query : ResolvedDomainQuery) : SameResolved lib std fmt query query :=
  ⟨rfl, .refl query.dom, rfl⟩

/-- **What a factory does not write of the selection is what the memory held.** -/
theorem drop_sel_build (lib : Hshm) (f : Factory) (prior : DomainQuery) :
    (f.build lib prior).sel.1.drop f.written = f.kept prior := by
  have hlow : ∀ value : UInt32, (prior.sel.setLow value).1.drop 4 = prior.sel.1.drop 4 :=
    fun value => List.drop_left' (length_leBytes 4 value.toNat)
  cases f with
  | localId subId id => exact hlow id
  | directId subId id iterFlags => exact hlow id
  | directHash subId hash iterFlags => exact hlow hash
  | global subId iterFlags => rfl
  | globalBcast => rfl
  | range subId off count iterFlags =>
    exact (DomainSelection.drop_eight _).trans prior.sel.drop_eight.symm

namespace DomainSelection

/-- Four bytes written depend on the other four only. -/
theorem setLow_congr {sel sel' : DomainSelection} (h : sel.1.drop 4 = sel'.1.drop 4)
    (value : UInt32) : sel.setLow value = sel'.setLow value :=
  Subtype.ext (congrArg (leBytes 4 value.toNat ++ ·) h)

/-- A range is all of the union. -/
theorem setRange_eq (sel sel' : DomainSelection) (off count : UInt32) :
    sel.setRange off count = sel'.setRange off count := by
  have htake : ∀ s : DomainSelection, (s.setLow off).1.take 4 = leBytes 4 off.toNat :=
    fun s => List.take_left' (length_leBytes 4 off.toNat)
  refine Subtype.ext (congrArg (· ++ leBytes 4 count.toNat) ?_)
  rw [htake, htake]

end DomainSelection

/-- **What it does write does not depend on the memory.** -/
theorem build_congr (h : f.kept prior = f.kept prior') :
    f.build lib prior = f.build lib prior' := by
  cases f with
  | localId subId id => exact congrArg (DomainQuery.mk _ _) (DomainSelection.setLow_congr h id)
  | directId subId id iterFlags =>
    exact congrArg (DomainQuery.mk _ _) (DomainSelection.setLow_congr h id)
  | directHash subId hash iterFlags =>
    exact congrArg (DomainQuery.mk _ _) (DomainSelection.setLow_congr h hash)
  | global subId iterFlags => exact congrArg (DomainQuery.mk _ _) (Subtype.ext h)
  | globalBcast => exact congrArg (DomainQuery.mk _ _) (Subtype.ext h)
  | range subId off count iterFlags =>
    exact congrArg (DomainQuery.mk _ _) (DomainSelection.setRange_eq _ _ off count)

end TwoRuns

/-- **The arguments of a call decide its result exactly where the memories agree on the bytes of the
selection it does not write.** -/
theorem argumentsDecide_iff (lib : Hshm) (std : StdHash) (fmt : Format) (f : Factory)
    (prior prior' : DomainQuery) :
    ArgumentsDecide lib std fmt f prior prior' ↔ f.kept prior = f.kept prior' := by
  constructor
  · intro h
    have hsame : f.build lib prior = f.build lib prior' :=
      DomainQuery.operatorEq_iff.mp h.result.equal
    rw [← drop_sel_build lib f prior, ← drop_sel_build lib f prior', hsame]
  · intro h
    have hsame : f.build lib prior = f.build lib prior' := build_congr h
    refine ⟨?_, fun t mem mem' => ?_, fun node mem mem' => ?_, fun t node mem mem' dst dst' => ?_⟩
    · rw [hsame]
      exact .refl _
    · rw [DomainQuery.transfer_eq, DomainQuery.transfer_eq, hsame]
      exact .refl _
    · rw [ResolvedDomainQuery.construct_eq, ResolvedDomainQuery.construct_eq, hsame]
      exact .refl _
    · rw [ResolvedDomainQuery.transfer_eq, ResolvedDomainQuery.transfer_eq,
        ResolvedDomainQuery.construct_eq, ResolvedDomainQuery.construct_eq, hsame]
      exact .refl _

/-- `GetRange` leaves no byte of the selection to the memory. -/
theorem kept_range (subId off count iterFlags : UInt32) (prior : DomainQuery) :
    (Factory.range subId off count iterFlags).kept prior = [] :=
  prior.sel.drop_eight

/-- Memory filled with one byte. -/
def filled (b : UInt8) : DomainQuery := ⟨0, 0, ⟨List.replicate 8 b, List.length_replicate⟩⟩

/-- **`GetLocalId` in cleared memory and in memory full of ones: two queries for container 7 that
differ, and hash apart.** -/
theorem not_argumentsDecide_localId :
    ((Factory.localId 1 7).build wordBits (filled 0)).operatorEq
        ((Factory.localId 1 7).build wordBits (filled 255)) = false ∧
      ((Factory.localId 1 7).build wordBits (filled 0)).hash ⟨UInt32.toUInt64, id⟩
        ≠ ((Factory.localId 1 7).build wordBits (filled 255)).hash ⟨UInt32.toUInt64, id⟩ ∧
      ¬ ArgumentsDecide wordBits ⟨UInt32.toUInt64, id⟩ littleEndian (.localId 1 7) (filled 0)
        (filled 255) := by
  have hdiffer : ((Factory.localId 1 7).build wordBits (filled 0)).operatorEq
      ((Factory.localId 1 7).build wordBits (filled 255)) = false := by decide
  refine ⟨hdiffer, by decide, fun h => ?_⟩
  exact Bool.noConfusion (hdiffer.symm.trans h.result.equal)

end ChiNettest
