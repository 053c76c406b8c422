import ChiNettest.Machinery.Text
import ChiNettest.Machinery.Wire
import ChiNettest.Types.DomainQuery

/-!
# Types/Identifiers — ids of pools, tasks and subdomains, as keys and as messages

`UniqueId`, `SubDomainId` and `DomainId` are compared, hashed and printed.  Equality leaves the
`hash_` of a `UniqueId` out, and so do hash and print: each of the three types is a key a hash
container can hold, and its keys print alike exactly if they are equal (`identifiers_areKeys`).

Each type is serialized member by member, and overwritten by a load (`serialize_parses`).
-/

namespace ChiNettest

/-! ## Unique ids -/

/-- Unique id of states and queues; `type` tells ids of different things apart. -/
structure UniqueId (type : ℤ) where
  /-- `node_id_`, which shares its bytes with `prio_` -/
  nodeId : UInt32
  hash : UInt32
  unique : UInt64
  deriving DecidableEq, Repr

/-- Uniquely identify a pool. -/
abbrev PoolId : Type := UniqueId 1

/-- Uniquely identify a queue. -/
abbrev QueueId : Type := UniqueId 2

/-- Uniquely identify a task. -/
abbrev TaskId : Type := UniqueId 3

namespace UniqueId

variable {type : ℤ}

/-- `UniqueId::UniqueId(node_id, unique)` -/
def emplace (nodeId : UInt32) (unique : UInt64) : UniqueId type := ⟨nodeId, 0, unique⟩

/-- `UniqueId::UniqueId(node_id, hash, unique)` -/
def emplaceHash (nodeId hash : UInt32) (unique : UInt64) : UniqueId type := ⟨nodeId, hash, unique⟩

/-- A copy, from an id of another type too. -/
def ofOther {otherType : ℤ} (other : UniqueId otherType) : UniqueId type :=
  ⟨other.nodeId, other.hash, other.unique⟩

/-- `UniqueId::IsNull` -/
def isNull (id : UniqueId type) : Bool := id.nodeId == 0

/-- `UniqueId::GetNull` -/
def getNull : UniqueId type := emplace 0 0

/-- `UniqueId::SetNull`, on any id -/
def setNull (_id : UniqueId type) : UniqueId type := ⟨0, 0, 0⟩

/-- `UniqueId::GetNodeId` -/
def getNodeId (id : UniqueId type) : UInt32 := id.nodeId

/-- `UniqueId::operator==` -/
def operatorEq (id other : UniqueId type) : Bool :=
  id.unique == other.unique && id.nodeId == other.nodeId

/-- `UniqueId::operator!=` -/
def operatorNe (id other : UniqueId type) : Bool :=
  id.unique != other.unique || id.nodeId != other.nodeId

/-- The text of an id: `node_id_.unique_`. -/
def print (id : UniqueId type) : String :=
  toString id.nodeId.toNat ++ "." ++ toString id.unique.toNat

/-- `UniqueId::Hash` -/
def hashOf (std : StdHash) (id : UniqueId type) : UInt64 := std.u64 id.unique + std.u32 id.nodeId

/-- `UniqueId::serialize` -/
def serialize (fmt : Format) (id : UniqueId type) : Ar (UniqueId type) := do
  let nodeId ← fmt.u32.field id.nodeId
  let hash ← fmt.u32.field id.hash
  let unique ← fmt.u64.field id.unique
  return ⟨nodeId, hash, unique⟩

/-- The bytes of an id. -/
def bytes (fmt : Format) (id : UniqueId type) : List UInt8 :=
  fmt.u32.encode id.nodeId ++ (fmt.u32.encode id.hash ++ fmt.u64.encode id.unique)

/-- The members of an id. -/
def members : UniqueId type ≃ UInt32 × UInt32 × UInt64 where
  toFun id := (id.nodeId, id.hash, id.unique)
  invFun m := ⟨m.1, m.2.1, m.2.2⟩
  left_inv _ := rfl
  right_inv _ := rfl

/-- **An id is overwritten by a load.** -/
theorem serialize_parses {fmt : Format} (hfmt : fmt.Exact) :
    Parses (serialize fmt) (bytes fmt) fun (id : UniqueId type) _ => id := by
  have heq : (serialize fmt : UniqueId type → Ar (UniqueId type)) = along members
      (both fmt.u32.field (both fmt.u32.field fmt.u64.field)) := by
    funext id
    simp [serialize, along, both, members]
  rw [heq]
  exact ((Codec.parses hfmt.u32).both ((Codec.parses hfmt.u32).both (Codec.parses hfmt.u64))).along
    members

/-- An id is printed number by number. -/
theorem toList_print (id : UniqueId type) :
    id.print.toList = joinNumbers '.' [id.nodeId.toNat, id.unique.toNat] := by
  simp [print, joinNumbers]

theorem operatorEq_iff {id other : UniqueId type} :
    id.operatorEq other = true ↔ id.nodeId = other.nodeId ∧ id.unique = other.unique := by
  rw [operatorEq, Bool.and_eq_true, beq_iff_eq, beq_iff_eq, and_comm]

theorem operatorNe_eq (id other : UniqueId type) : id.operatorNe other = !id.operatorEq other := by
  rw [operatorNe, operatorEq, Bool.not_and]
  rfl

/-- The hash an id is built with does not tell it from the id built without. -/
theorem operatorEq_emplaceHash (nodeId hash : UInt32) (unique : UInt64) :
    (emplaceHash nodeId hash unique : UniqueId type).operatorEq (emplace nodeId unique) = true :=
  operatorEq_iff.mpr ⟨rfl, rfl⟩

/-- A copy of another type is the same key: it hashes and prints as the original does. -/
theorem ofOther_key {otherType : ℤ} (std : StdHash) (other : UniqueId otherType) :
    (ofOther other : UniqueId type).hashOf std = other.hashOf std ∧
      (ofOther other : UniqueId type).print = other.print := ⟨rfl, rfl⟩

theorem isNull_iff {id : UniqueId type} : id.isNull = true ↔ id.getNodeId = 0 := beq_iff_eq

theorem setNull_eq (id : UniqueId type) : id.setNull = getNull := rfl

/-- **An id can be null without being the null id**: only the node counts for the one, the number
too for the other. -/
theorem operatorEq_getNull_iff {id : UniqueId type} :
    id.operatorEq getNull = true ↔ id.isNull = true ∧ id.unique = 0 := by
  rw [operatorEq_iff, isNull_iff]
  rfl

end UniqueId

/-- Context used for creating objects. -/
structure CreateContext where
  id : PoolId := .getNull
  globalContainers : UInt32 := 0
  localContainersPn : UInt32 := 0
  lanesPerContainer : UInt32 := 0
  deriving DecidableEq, Repr

namespace CreateContext

/-- `CreateContext::serialize` -/
def serialize (fmt : Format) (ctx : CreateContext) : Ar CreateContext := do
  let id ← ctx.id.serialize fmt
  let globalContainers ← fmt.u32.field ctx.globalContainers
  let localContainersPn ← fmt.u32.field ctx.localContainersPn
  let lanesPerContainer ← fmt.u32.field ctx.lanesPerContainer
  return ⟨id, globalContainers, localContainersPn, lanesPerContainer⟩

/-- The bytes of a context. -/
def bytes (fmt : Format) (ctx : CreateContext) : List UInt8 :=
  ctx.id.bytes fmt ++ (fmt.u32.encode ctx.globalContainers ++
    (fmt.u32.encode ctx.localContainersPn ++ fmt.u32.encode ctx.lanesPerContainer))

/-- The members of a context. -/
def members : CreateContext ≃ PoolId × UInt32 × UInt32 × UInt32 where
  toFun ctx := (ctx.id, ctx.globalContainers, ctx.localContainersPn, ctx.lanesPerContainer)
  invFun m := ⟨m.1, m.2.1, m.2.2.1, m.2.2.2⟩
  left_inv _ := rfl
  right_inv _ := rfl

/-- **A context is overwritten by a load.** -/
theorem serialize_parses {fmt : Format} (hfmt : fmt.Exact) :
    Parses (serialize fmt) (bytes fmt) fun ctx _ => ctx := by
  have heq : serialize fmt = along members (both (UniqueId.serialize fmt)
      (both fmt.u32.field (both fmt.u32.field fmt.u32.field))) := by
    funext ctx
    simp [serialize, along, both, members]
  have hword := Codec.parses hfmt.u32
  rw [heq]
  exact ((UniqueId.serialize_parses hfmt).both (hword.both (hword.both hword))).along members

end CreateContext

/-! ## Subdomains -/

/-- An unscoped subdomain of nodes or lanes. -/
structure SubDomainId where
  major : UInt32
  minor : UInt32
  deriving DecidableEq, Repr

namespace SubDomainId

/-- `SubDomainId::kPhysicalNode` -/
def kPhysicalNode : UInt32 := 0

/-- `SubDomainId::SubDomainId(major)` -/
def ofMajor (major : UInt32) : SubDomainId := ⟨major, 0⟩

/-- `SubDomainId::CreatePhysical` -/
def createPhysical (minor : UInt32) : SubDomainId := ⟨kPhysicalNode, minor⟩

/-- `SubDomainId::IsPhysical` -/
def isPhysical (id : SubDomainId) : Bool := id.major == kPhysicalNode

/-- `SubDomainId::IsMajor` -/
def isMajor (id : SubDomainId) : Bool := id.minor == 0

/-- `SubDomainId::IsMinor` -/
def isMinor (id : SubDomainId) : Bool := 0 < id.minor

/-- `SubDomainId::operator==` -/
def operatorEq (id other : SubDomainId) : Bool :=
  id.major == other.major && id.minor == other.minor

/-- The text of a subdomain: `major_.minor_`. -/
def print (id : SubDomainId) : String :=
  toString id.major.toNat ++ "." ++ toString id.minor.toNat

/-- `SubDomainId::Hash` -/
def hashOf (std : StdHash) (id : SubDomainId) : UInt64 := std.u32 id.major + std.u32 id.minor

/-- `SubDomainId::serialize` -/
def serialize (fmt : Format) (id : SubDomainId) : Ar SubDomainId := do
  let major ← fmt.u32.field id.major
  let minor ← fmt.u32.field id.minor
  return ⟨major, minor⟩

/-- The bytes of a subdomain. -/
def bytes (fmt : Format) (id : SubDomainId) : List UInt8 :=
  fmt.u32.encode id.major ++ fmt.u32.encode id.minor

/-- The members of a subdomain. -/
def members : SubDomainId ≃ UInt32 × UInt32 where
  toFun id := (id.major, id.minor)
  invFun m := ⟨m.1, m.2⟩
  left_inv _ := rfl
  right_inv _ := rfl

/-- **A subdomain is overwritten by a load.** -/
theorem serialize_parses {fmt : Format} (hfmt : fmt.Exact) :
    Parses (serialize fmt) (bytes fmt) fun id _ => id := by
  have heq : serialize fmt = along members (both fmt.u32.field fmt.u32.field) := by
    funext id
    simp [serialize, along, both, members]
  have hword := Codec.parses hfmt.u32
  rw [heq]
  exact (hword.both hword).along members

/-- A subdomain is printed number by number. -/
theorem toList_print (id : SubDomainId) :
    id.print.toList = joinNumbers '.' [id.major.toNat, id.minor.toNat] := by
  simp [print, joinNumbers]

theorem operatorEq_iff {id other : SubDomainId} : id.operatorEq other = true ↔ id = other := by
  obtain ⟨major, minor⟩ := id
  obtain ⟨major', minor'⟩ := other
  simp [operatorEq]

/-- The physical subdomains are the nodes. -/
theorem isPhysical_iff {id : SubDomainId} :
    id.isPhysical = true ↔ ∃ minor, id = createPhysical minor := by
  constructor
  · intro h
    exact ⟨id.minor, congrArg (SubDomainId.mk · id.minor) (beq_iff_eq.mp h)⟩
  · rintro ⟨minor, rfl⟩
    rfl

/-- **`IsMajor` holds of what the constructor of a major group alone builds**, and `IsMinor` of
everything else: `SubDomainId(1, 0)` is major, against the comments beside the two functions. -/
theorem isMajor_iff {id : SubDomainId} : id.isMajor = true ↔ ∃ major, id = ofMajor major := by
  constructor
  · intro h
    exact ⟨id.major, congrArg (SubDomainId.mk id.major) (beq_iff_eq.mp h)⟩
  · rintro ⟨major, rfl⟩
    rfl

theorem isMinor_eq (id : SubDomainId) : id.isMinor = !id.isMajor := by
  rw [isMinor, isMajor, Bool.eq_iff_iff, Bool.not_eq_true', beq_eq_false_iff_ne, decide_eq_true_iff]
  exact UInt32.pos_iff_ne_zero

end SubDomainId

/-- A scoped domain. -/
structure DomainId where
  scope : PoolId
  subId : SubDomainId
  deriving DecidableEq, Repr

namespace DomainId

/-- `DomainId::DomainId(scope, group, minor)` -/
def emplace (scope : PoolId) (group minor : UInt32) : DomainId := ⟨scope, ⟨group, minor⟩⟩

/-- `DomainId::DomainId(scope, group)` -/
def ofGroup (scope : PoolId) (group : UInt32) : DomainId := ⟨scope, .ofMajor group⟩

theorem ofGroup_eq (scope : PoolId) (group : UInt32) :
    ofGroup scope group = emplace scope group 0 := rfl

/-- `DomainId::operator==` -/
def operatorEq (id other : DomainId) : Bool :=
  id.scope.operatorEq other.scope && id.subId.operatorEq other.subId

/-- The text of a domain: its scope, a dot, its subdomain. -/
def print (id : DomainId) : String := id.scope.print ++ "." ++ id.subId.print

/-- `DomainId::Hash` -/
def hashOf (std : StdHash) (id : DomainId) : UInt64 := id.scope.hashOf std + id.subId.hashOf std

/-- `DomainId::serialize` -/
def serialize (fmt : Format) (id : DomainId) : Ar DomainId := do
  let scope ← id.scope.serialize fmt
  let subId ← id.subId.serialize fmt
  return ⟨scope, subId⟩

/-- The bytes of a domain. -/
def bytes (fmt : Format) (id : DomainId) : List UInt8 := id.scope.bytes fmt ++ id.subId.bytes fmt

/-- The members of a domain. -/
def members : DomainId ≃ PoolId × SubDomainId where
  toFun id := (id.scope, id.subId)
  invFun m := ⟨m.1, m.2⟩
  left_inv _ := rfl
  right_inv _ := rfl

/-- **A domain is overwritten by a load.** -/
theorem serialize_parses {fmt : Format} (hfmt : fmt.Exact) :
    Parses (serialize fmt) (bytes fmt) fun id _ => id := by
  have heq : serialize fmt
      = along members (both (UniqueId.serialize fmt) (SubDomainId.serialize fmt)) := by
    funext id
    simp [serialize, along, both, members]
  rw [heq]
  exact ((UniqueId.serialize_parses hfmt).both (SubDomainId.serialize_parses hfmt)).along members

/-- A domain is printed number by number. -/
theorem toList_print (id : DomainId) : id.print.toList = joinNumbers '.'
    [id.scope.nodeId.toNat, id.scope.unique.toNat, id.subId.major.toNat, id.subId.minor.toNat] := by
  simp [print, UniqueId.print, SubDomainId.print, joinNumbers]

end DomainId

/-! ### Updates of a domain -/

/-- Subdomain ID range -/
structure SubDomainIdRange where
  group : UInt32
  off : UInt32
  count : UInt32
  deriving DecidableEq, Repr

namespace SubDomainIdRange

/-- `SubDomainIdRange::serialize` -/
def serialize (fmt : Format) (range : SubDomainIdRange) : Ar SubDomainIdRange := do
  let group ← fmt.u32.field range.group
  let off ← fmt.u32.field range.off
  let count ← fmt.u32.field range.count
  return ⟨group, off, count⟩

/-- The bytes of a range. -/
def bytes (fmt : Format) (range : SubDomainIdRange) : List UInt8 :=
  fmt.u32.encode range.group ++ (fmt.u32.encode range.off ++ fmt.u32.encode range.count)

/-- The members of a range. -/
def members : SubDomainIdRange ≃ UInt32 × UInt32 × UInt32 where
  toFun range := (range.group, range.off, range.count)
  invFun m := ⟨m.1, m.2.1, m.2.2⟩
  left_inv _ := rfl
  right_inv _ := rfl

/-- **A range is overwritten by a load.** -/
theorem serialize_parses {fmt : Format} (hfmt : fmt.Exact) :
    Parses (serialize fmt) (bytes fmt) fun range _ => range := by
  have heq : serialize fmt
      = along members (both fmt.u32.field (both fmt.u32.field fmt.u32.field)) := by
    funext range
    simp [serialize, along, both, members]
  have hword := Codec.parses hfmt.u32
  rw [heq]
  exact (hword.both (hword.both hword)).along members

end SubDomainIdRange

/-- Operations that can be performed on a domain: an `int`, which a load need not find among the
enumerators. -/
structure UpdateDomainOp where
  value : Int32
  deriving DecidableEq

/-- Info required for updating a domain -/
structure UpdateDomainInfo where
  domainId : DomainId
  op : UpdateDomainOp
  range : SubDomainIdRange
  deriving DecidableEq

namespace UpdateDomainInfo

/-- `UpdateDomainInfo::serialize`, `int` being how the archive treats an enumeration. -/
def serialize (int : Codec Int32) (fmt : Format) (info : UpdateDomainInfo) :
    Ar UpdateDomainInfo := do
  let domainId ← info.domainId.serialize fmt
  let op ← int.field info.op.value
  let range ← info.range.serialize fmt
  return ⟨domainId, ⟨op⟩, range⟩

/-- The bytes of an update. -/
def bytes (int : Codec Int32) (fmt : Format) (info : UpdateDomainInfo) : List UInt8 :=
  info.domainId.bytes fmt ++ (int.encode info.op.value ++ info.range.bytes fmt)

/-- The members of an update. -/
def members : UpdateDomainInfo ≃ DomainId × Int32 × SubDomainIdRange where
  toFun info := (info.domainId, info.op.value, info.range)
  invFun m := ⟨m.1, ⟨m.2.1⟩, m.2.2⟩
  left_inv _ := rfl
  right_inv _ := rfl

/-- **An update is overwritten by a load.** -/
theorem serialize_parses {int : Codec Int32} (hint : int.Exact) {fmt : Format}
    (hfmt : fmt.Exact) :
    Parses (serialize int fmt) (bytes int fmt) fun info _ => info := by
  have heq : serialize int fmt = along members
      (both (DomainId.serialize fmt) (both int.field (SubDomainIdRange.serialize fmt))) := by
    funext info
    simp [serialize, along, both, members]
  rw [heq]
  exact ((DomainId.serialize_parses hfmt).both
    ((Codec.parses hint).both (SubDomainIdRange.serialize_parses hfmt))).along members

end UpdateDomainInfo

/-! ## Keys -/

/-- **What a container of hashed keys asks of their type**, and what a reader of a log does:
equality is an equivalence, equal keys hash alike, and keys print alike exactly if they are equal.
-/
structure AreKeys {K : Type} (eq : K → K → Bool) (hash : K → UInt64) (print : K → String) :
    Prop where
  equivalence : Equivalence fun k k' => eq k k' = true
  hash : ∀ k k', eq k k' = true → hash k = hash k'
  print : ∀ k k', print k = print k' ↔ eq k k' = true

/-- Where keys are printed as numbers joined by dots, and those numbers decide equality and hash,
they are keys. -/
theorem areKeys_of_numbers {K : Type} {eq : K → K → Bool} {hash : K → UInt64}
    {print : K → String} {numbers : K → List ℕ} (hne : ∀ k, numbers k ≠ [])
    (hprint : ∀ k, (print k).toList = joinNumbers '.' (numbers k))
    (heq : ∀ k k', eq k k' = true ↔ numbers k = numbers k')
    (hhash : ∀ k k', numbers k = numbers k' → hash k = hash k') : AreKeys eq hash print where
  equivalence := {
    refl := fun k => (heq k k).mpr rfl
    symm := fun h => (heq _ _).mpr ((heq _ _).mp h).symm
    trans := fun h h' => (heq _ _).mpr (((heq _ _).mp h).trans ((heq _ _).mp h')) }
  hash k k' h := hhash k k' ((heq k k').mp h)
  print k k' := by
    rw [← String.toList_inj, hprint, hprint, joinNumbers_inj (by decide) (hne k) (hne k'), heq]

/-- **Pool ids, subdomains and domains are keys**, whatever `std::hash` is. -/
theorem identifiers_areKeys (std : StdHash) (type : ℤ) :
    AreKeys (@UniqueId.operatorEq type) (UniqueId.hashOf std) UniqueId.print ∧
      AreKeys SubDomainId.operatorEq (SubDomainId.hashOf std) SubDomainId.print ∧
      AreKeys DomainId.operatorEq (DomainId.hashOf std) DomainId.print := by
  refine ⟨areKeys_of_numbers (fun _ => List.cons_ne_nil _ _) UniqueId.toList_print
      (fun k k' => ?_) (fun k k' h => ?_),
    areKeys_of_numbers (fun _ => List.cons_ne_nil _ _) SubDomainId.toList_print
      (fun k k' => ?_) (fun k k' h => ?_),
    areKeys_of_numbers (fun _ => List.cons_ne_nil _ _) DomainId.toList_print
      (fun k k' => ?_) (fun k k' h => ?_)⟩
  · simp [UniqueId.operatorEq_iff, UInt32.toNat_inj, UInt64.toNat_inj]
  · simp only [List.cons.injEq, UInt32.toNat_inj, UInt64.toNat_inj, and_true] at h
    rw [UniqueId.hashOf, UniqueId.hashOf, h.1, h.2]
  · obtain ⟨major, minor⟩ := k
    obtain ⟨major', minor'⟩ := k'
    simp [SubDomainId.operatorEq_iff, UInt32.toNat_inj]
  · simp only [List.cons.injEq, UInt32.toNat_inj, and_true] at h
    rw [SubDomainId.hashOf, SubDomainId.hashOf, h.1, h.2]
  · obtain ⟨scope, major, minor⟩ := k
    obtain ⟨scope', major', minor'⟩ := k'
    simp [DomainId.operatorEq, UniqueId.operatorEq_iff, SubDomainId.operatorEq_iff,
      UInt32.toNat_inj, UInt64.toNat_inj, and_assoc]
  · simp only [List.cons.injEq, UInt32.toNat_inj, UInt64.toNat_inj, and_true] at h
    rw [DomainId.hashOf, DomainId.hashOf, UniqueId.hashOf, UniqueId.hashOf, SubDomainId.hashOf,
      SubDomainId.hashOf, h.1, h.2.1, h.2.2.1, h.2.2.2]

end ChiNettest
