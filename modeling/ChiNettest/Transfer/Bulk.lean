import ChiNettest.Machinery.Memory
import ChiNettest.Transfer.Serialize
import Mathlib.Algebra.Order.BigOperators.Group.List
import Mathlib.Data.List.Pairwise

/-!
# Transfer/Bulk — a segmented write, from the client's segments to the server's buffers

The client selects the segments that share a bit with the transfer's flag and exposes them; the
message crosses without the addresses; the server gives every segment a buffer, makes the same
selection over its own list, and pulls.

Both selections are `makeBulk` over lists that agree on flags and sizes
(`Corresponds`), so they pick corresponding segments, and the pull copies segment onto segment
(`Mem.map_read_scatter_gather`).  `segmentedWrite_delivers` is the whole path.

The flags are bits of `hshm`, the parameter `lib`, known to keep them in words
(`HshmAny.OnWords`); the transport is the parameter `pull`, known to move the bytes of an access it
permits (`MovesBytes`); the allocator is the parameter `malloc`, known to return disjoint buffers.
-/

namespace ChiNettest

/-! ## Selecting and exposing segments -/

/-- `tl::bulk_mode` -/
inductive BulkMode
  | readOnly
  | writeOnly
  | readWrite
  deriving DecidableEq, Repr

namespace BulkMode

/-- Whether the exposed memory may be read from. -/
def reads : BulkMode → Bool
  | readOnly | readWrite => true
  | writeOnly => false

/-- Whether the exposed memory may be written to. -/
def writes : BulkMode → Bool
  | writeOnly | readWrite => true
  | readOnly => false

end BulkMode

/-- `tl::bulk`, what an engine exposes: memory segments under an access mode. -/
structure Bulk where
  segments : List Seg
  mode : BulkMode
  deriving DecidableEq, Repr

namespace DataTransfer

/-- The memory a segment of a transfer stands for. -/
def seg (xfer : DataTransfer) : Seg := ⟨xfer.data.toNat, xfer.dataSize.toNat⟩

/-- `flags_.Any(chi_flag)` -/
def any (lib : HshmAny) (chiFlag : UInt32) (xfer : DataTransfer) : Bool :=
  lib.any xfer.flags chiFlag

end DataTransfer

/-- The loop of `MakeBulk`: the segments chosen and `size_bytes`, from what they are so far. -/
def selectSegments (lib : HshmAny) (chiFlag : UInt32) :
    List DataTransfer → List Seg → UInt64 → List Seg × UInt64
  | [], segments, sizeBytes => (segments, sizeBytes)
  | xfer :: xfers, segments, sizeBytes =>
    if xfer.any lib chiFlag then
      selectSegments lib chiFlag xfers (segments ++ [xfer.seg]) (sizeBytes + xfer.dataSize)
    else selectSegments lib chiFlag xfers segments sizeBytes

/-- `ThalliumRpc::MakeBulk`: the bulk, null when there is nothing to expose, and `size_bytes`. -/
def makeBulk (lib : HshmAny) (xfers : List DataTransfer) (chiFlag : UInt32) (tlFlag : BulkMode) :
    Option Bulk × UInt64 :=
  let (segments, sizeBytes) := selectSegments lib chiFlag xfers [] 0
  (if sizeBytes ≠ 0 then some ⟨segments, tlFlag⟩ else none, sizeBytes)

/-- `ThalliumRpc::MakeBulkClient` -/
def makeBulkClient (lib : HshmAny) (xfers : List DataTransfer) (chiFlag : UInt32) :
    Option Bulk × UInt64 :=
  makeBulk lib xfers chiFlag (if chiFlag &&& dtWrite lib ≠ 0 then .readOnly else .writeOnly)

/-- `ThalliumRpc::MakeBulkServer` -/
def makeBulkServer (lib : HshmAny) (xfers : List DataTransfer) (chiFlag : UInt32) :
    Option Bulk × UInt64 :=
  makeBulk lib xfers chiFlag (if chiFlag &&& dtWrite lib ≠ 0 then .writeOnly else .readOnly)

/-! ## The two sides -/

/-- What an I/O call sends, with the `planned_bytes` of the client. -/
structure IoMessage where
  bulk : Option Bulk
  body : List UInt8
  plannedBytes : UInt64
  deriving DecidableEq, Repr

/-- `ThalliumRpc::IoCall`, up to the arguments it calls the server with. -/
def ioCallMessage (lib : HshmAny) (ar : Format) (xfer : SegmentedTransfer) (ioFlag : UInt32) :
    Option IoMessage := do
  let (bulk, plannedBytes) := makeBulkClient lib xfer.bulk.1 ioFlag
  match ← xfer.serialize ar (.saving []) with
  | (_, .saving body) => return ⟨bulk, body, plannedBytes⟩
  | (_, .loading _) => none

/-- `remote >> local`, the memories of the two sides given: the bytes it moved and the local memory
after it, or what it throws. -/
abbrev Pull : Type := Option Bulk → Option Bulk → Mem → Mem → Except String (UInt64 × Mem)

/-- What a server has done with an I/O call. -/
structure ServerWrite where
  xfer : SegmentedTransfer
  plannedBytes : UInt64
  realBytes : UInt64
  /-- the bulks of every pull, remote and local -/
  pulls : List (Option Bulk × Option Bulk)
  mem : Mem

/-- `SegmentedTransfer::AllocateBulksServer`, `malloc` answering its `i`-th call. -/
def SegmentedTransfer.allocateBulksServer (malloc : ℕ → UInt64 → UInt64)
    (xfer : SegmentedTransfer) : SegmentedTransfer :=
  { xfer with
    bulk := ⟨xfer.bulk.1.mapIdx fun i segment =>
      { segment with data := malloc i segment.dataSize }, by
        rw [List.length_mapIdx]; exact xfer.bulk.2⟩ }

/-- `ThalliumRpc::IoCallServerWrite` on the node `nodeId`. -/
def ioCallServerWrite (lib : HshmAny) (pull : Pull) (nodeId : NodeId) (bulk : Option Bulk)
    (xfer : SegmentedTransfer) (clientMem serverMem : Mem) : Except Exn ServerWrite :=
  let (localWbulk, plannedBytes) := makeBulkServer lib xfer.bulk.1 (dtWrite lib)
  if plannedBytes = 0 then .ok ⟨xfer, plannedBytes, 0, [], serverMem⟩
  else match pull bulk localWbulk clientMem serverMem with
    | .ok (moved, mem) => .ok ⟨xfer, plannedBytes, 0 + moved, [(bulk, localWbulk)], mem⟩
    | .error what => .error (.fatal ("(node " ++ toString nodeId.toNat ++
        ") Failed to perform bulk I/O thallium: " ++ what))

/-- `TestRunner::RpcTaskSubmit`, its arguments loaded into `prior`: `none` is a body that does not
load. -/
def rpcTaskSubmit (lib : HshmAny) (ar : Format) (pull : Pull) (malloc : ℕ → UInt64 → UInt64)
    (nodeId : NodeId) (prior : SegmentedTransfer) (msg : IoMessage) (clientMem serverMem : Mem) :
    Option (Except Exn ServerWrite) := do
  let (xfer, _) ← prior.serialize ar (.loading msg.body)
  return ioCallServerWrite lib pull nodeId msg.bulk (xfer.allocateBulksServer malloc) clientMem
    serverMem

/-! ## What a selection holds -/

/-- The segments of a list that share a bit with the flag. -/
def chosen (lib : HshmAny) (chiFlag : UInt32) (xfers : List DataTransfer) : List Seg :=
  (xfers.filter (DataTransfer.any lib chiFlag)).map DataTransfer.seg

/-- The bytes of all the segments of a list. -/
def totalSize (xfers : List DataTransfer) : ℕ := (xfers.map fun x => x.dataSize.toNat).sum

theorem selectSegments_eq (lib : HshmAny) (chiFlag : UInt32) :
    ∀ (xfers : List DataTransfer) (segments : List Seg) (sizeBytes : UInt64),
      selectSegments lib chiFlag xfers segments sizeBytes = (segments ++ chosen lib chiFlag xfers,
        sizeBytes + UInt64.ofNat ((chosen lib chiFlag xfers).map Seg.len).sum)
  | [], segments, sizeBytes => by simp [selectSegments, chosen]
  | xfer :: xfers, segments, sizeBytes => by
      rw [selectSegments, chosen, List.filter_cons]
      split
      · rw [selectSegments_eq lib chiFlag xfers, List.map_cons, List.map_cons, List.sum_cons,
          UInt64.ofNat_add, DataTransfer.seg, UInt64.ofNat_toNat, UInt64.add_assoc,
          List.append_assoc]
        rfl
      · exact selectSegments_eq lib chiFlag xfers segments sizeBytes

theorem sum_len_chosen_le (lib : HshmAny) (chiFlag : UInt32) (xfers : List DataTransfer) :
    ((chosen lib chiFlag xfers).map Seg.len).sum ≤ totalSize xfers := by
  rw [chosen, List.map_map]
  exact List.Sublist.sum_le_sum (List.filter_sublist.map _) fun _ _ => Nat.zero_le _

/-- **What `MakeBulk` exposes**: the segments chosen, unless they are empty altogether. -/
theorem makeBulk_eq (lib : HshmAny) {xfers : List DataTransfer} (htotal : totalSize xfers < 2 ^ 64)
    (chiFlag : UInt32) (tlFlag : BulkMode) :
    makeBulk lib xfers chiFlag tlFlag =
      (if ((chosen lib chiFlag xfers).map Seg.len).sum = 0 then none
        else some ⟨chosen lib chiFlag xfers, tlFlag⟩,
        UInt64.ofNat ((chosen lib chiFlag xfers).map Seg.len).sum) := by
  have hlt := (sum_len_chosen_le lib chiFlag xfers).trans_lt htotal
  have hzero : UInt64.ofNat ((chosen lib chiFlag xfers).map Seg.len).sum = 0 ↔
      ((chosen lib chiFlag xfers).map Seg.len).sum = 0 := by
    rw [← UInt64.toNat_inj, UInt64.toNat_ofNat_of_lt' hlt]
    rfl
  simp only [makeBulk, selectSegments_eq, List.nil_append, UInt64.zero_add, ne_eq, hzero, ite_not]

/-! ## The list rebuilt from the wire -/

/-- Entries with the same flags and the same size. -/
def Corresponds (a b : DataTransfer) : Prop := a.flags = b.flags ∧ a.dataSize = b.dataSize

theorem Corresponds.any_eq {a b : DataTransfer} (h : Corresponds a b) (lib : HshmAny)
    (chiFlag : UInt32) :
    a.any lib chiFlag = b.any lib chiFlag :=
  congrArg (lib.any · chiFlag) h.1

/-- **The list a server works on**: the client's, every address replaced by a buffer. -/
theorem bulk_allocateBulksServer (malloc : ℕ → UInt64 → UInt64)
    (xfer prior : SegmentedTransfer) :
    ((xfer.land prior).allocateBulksServer malloc).bulk.1
      = xfer.bulk.1.mapIdx fun i a => { a with data := malloc i a.dataSize } := by
  ext i b
  change (List.mapIdx _ _)[i]? = _ ↔ _
  rw [List.getElem?_mapIdx, SegmentedTransfer.getElem?_land, List.getElem?_mapIdx, Option.map_map]
  rfl

/-- The server's list has the client's entries, in order, up to their addresses. -/
theorem forall₂_corresponds (malloc : ℕ → UInt64 → UInt64) (xfers : List DataTransfer) :
    List.Forall₂ Corresponds xfers
      (xfers.mapIdx fun i a => { a with data := malloc i a.dataSize }) := by
  rw [List.forall₂_iff_get]
  refine ⟨by rw [List.length_mapIdx], fun i hi hi' => ?_⟩
  simp only [List.get_eq_getElem, List.getElem_mapIdx]
  exact ⟨rfl, rfl⟩

/-- Corresponding lists select segments of the same lengths. -/
theorem map_len_chosen {l l' : List DataTransfer} (h : List.Forall₂ Corresponds l l')
    (lib : HshmAny) (chiFlag : UInt32) :
    (chosen lib chiFlag l).map Seg.len = (chosen lib chiFlag l').map Seg.len := by
  rw [chosen, chosen, List.map_map, List.map_map]
  exact map_filter_eq_of_forall₂ (fun a b hab => hab.any_eq lib chiFlag)
    (fun a b hab => congrArg UInt64.toNat hab.2) h

theorem totalSize_eq {l l' : List DataTransfer} (h : List.Forall₂ Corresponds l l') :
    totalSize l = totalSize l' := by
  induction h with
  | nil => rfl
  | @cons a b l l' hab _ ih =>
    have hsize : a.dataSize.toNat = b.dataSize.toNat := congrArg UInt64.toNat hab.2
    rw [totalSize, totalSize, List.map_cons, List.map_cons, List.sum_cons, List.sum_cons, hsize]
    exact congrArg (b.dataSize.toNat + ·) ih

/-! ## The whole path -/

/-- **The transport moves bytes**: a pull from an exposed readable bulk into an exposed writable
one of the same size succeeds, and lays the remote bytes out over the local segments in order. -/
def MovesBytes (pull : Pull) : Prop :=
  ∀ (remote loc : Bulk) (remoteMem localMem : Mem), remote.mode.reads → loc.mode.writes →
    (remote.segments.map Seg.len).sum = (loc.segments.map Seg.len).sum →
    (remote.segments.map Seg.len).sum < 2 ^ 64 →
    pull (some remote) (some loc) remoteMem localMem
      = .ok (UInt64.ofNat (loc.segments.map Seg.len).sum,
          Mem.scatter loc.segments (remoteMem.gather remote.segments) localMem)

/-- **The buffers `malloc` returns for the given sizes are disjoint.** -/
def FreshBuffers (malloc : ℕ → UInt64 → UInt64) (sizes : List UInt64) : Prop :=
  (sizes.mapIdx fun i size => Seg.mk (malloc i size).toNat size.toNat).Pairwise Seg.Disjoint

/-- **A server has received a segmented write**: the two sides planned the same bytes, the server
pulled when the client exposed a bulk and only then, and moved the bytes it planned; its list has
the client's flags and sizes in order; every segment of the write holds the client's bytes, every
other buffer what it held before; and each pull is between bulks that permit it. -/
structure Delivers (lib : HshmAny) (xfer : SegmentedTransfer) (clientMem serverMem : Mem)
    (msg : IoMessage) (run : ServerWrite) : Prop where
  planned : run.plannedBytes = msg.plannedBytes
  pulls : run.pulls ≠ [] ↔ msg.bulk ≠ none
  moved : run.realBytes = run.plannedBytes
  shape : List.Forall₂ Corresponds xfer.bulk.1 run.xfer.bulk.1
  delivered : ∀ (i : ℕ) (a b : DataTransfer), xfer.bulk.1[i]? = some a →
    run.xfer.bulk.1[i]? = some b → a.any lib (dtWrite lib) →
      run.mem.read b.seg = clientMem.read a.seg
  untouched : ∀ b ∈ run.xfer.bulk.1, ¬ b.any lib (dtWrite lib) →
    run.mem.read b.seg = serverMem.read b.seg
  permitted : ∀ p ∈ run.pulls, ∃ remote loc, p = (some remote, some loc) ∧
    remote.mode.reads ∧ loc.mode.writes

section Path

variable {lib : HshmAny} {pull : Pull}

/-- What is written shares a bit with itself. -/
theorem dtWrite_and_self (hlib : lib.OnWords) : dtWrite lib &&& dtWrite lib ≠ 0 := by
  rw [dtWrite, dtExpose, hlib.bitOpt, hlib.bitOpt]
  decide

theorem any_dtWrite (hlib : lib.OnWords) : lib.any (dtWrite lib) (dtWrite lib) = true := by
  rw [hlib.any]
  exact decide_eq_true (dtWrite_and_self hlib)

/-- What the client sends. -/
theorem ioCallMessage_eq (hlib : lib.OnWords) (ar : Format) (xfer : SegmentedTransfer)
    (htotal : totalSize xfer.bulk.1 < 2 ^ 64) :
    ioCallMessage lib ar xfer (dtWrite lib) = some
      ⟨if ((chosen lib (dtWrite lib) xfer.bulk.1).map Seg.len).sum = 0 then none
        else some ⟨chosen lib (dtWrite lib) xfer.bulk.1, .readOnly⟩, xfer.bytes ar,
        UInt64.ofNat ((chosen lib (dtWrite lib) xfer.bulk.1).map Seg.len).sum⟩ := by
  have hmode := dtWrite_and_self hlib
  simp only [ioCallMessage, makeBulkClient, if_pos hmode, makeBulk_eq lib htotal]
  change ((xfer.serialize ar (.saving [])).bind _) = _
  rw [(SegmentedTransfer.serialize_transmits ar).save]
  rfl

/-- **What a server does with the write**: in every case its memory ends up with the bytes of the
client's selection laid out over its own. -/
theorem ioCallServerWrite_eq (hlib : lib.OnWords) (hpull : MovesBytes pull)
    {l l' : List DataTransfer} (h : List.Forall₂ Corresponds l l')
    (htotal : totalSize l < 2 ^ 64) (nodeId : NodeId) (xfer : SegmentedTransfer)
    (hxfer : xfer.bulk.1 = l') (clientMem serverMem : Mem) :
    ∃ pulls, ioCallServerWrite lib pull nodeId
        (if ((chosen lib (dtWrite lib) l).map Seg.len).sum = 0 then none
          else some ⟨chosen lib (dtWrite lib) l, .readOnly⟩) xfer clientMem serverMem
      = .ok ⟨xfer, UInt64.ofNat ((chosen lib (dtWrite lib) l).map Seg.len).sum,
          UInt64.ofNat ((chosen lib (dtWrite lib) l).map Seg.len).sum, pulls,
          Mem.scatter (chosen lib (dtWrite lib) l')
            (clientMem.gather (chosen lib (dtWrite lib) l)) serverMem⟩ ∧
      (pulls ≠ [] ↔ ((chosen lib (dtWrite lib) l).map Seg.len).sum ≠ 0) ∧
      ∀ p ∈ pulls, ∃ remote loc : Bulk, p = (some remote, some loc) ∧
        remote.mode.reads ∧ loc.mode.writes := by
  have hlens := congrArg List.sum (map_len_chosen h lib (dtWrite lib))
  have hlt : ((chosen lib (dtWrite lib) l).map Seg.len).sum < 2 ^ 64 :=
    (sum_len_chosen_le lib (dtWrite lib) l).trans_lt htotal
  have hmode := dtWrite_and_self hlib
  rw [ioCallServerWrite, makeBulkServer, if_pos hmode, hxfer,
    makeBulk_eq lib (totalSize_eq h ▸ htotal), ← hlens]
  rcases Nat.eq_zero_or_pos ((chosen lib (dtWrite lib) l).map Seg.len).sum with hzero | hpos
  · -- nothing to expose: the stream gathered is empty
    have hempty : clientMem.gather (chosen lib (dtWrite lib) l) = [] :=
      List.length_eq_zero_iff.mp ((clientMem.length_gather _).trans hzero)
    refine ⟨[], ?_, by simp [hzero], fun p hp => absurd hp List.not_mem_nil⟩
    rw [hzero, hempty, Mem.scatter_nil]
    rfl
  · have hne : ((chosen lib (dtWrite lib) l).map Seg.len).sum ≠ 0 := hpos.ne'
    have hbytes : UInt64.ofNat ((chosen lib (dtWrite lib) l).map Seg.len).sum ≠ 0 := by
      rw [ne_eq, ← UInt64.toNat_inj, UInt64.toNat_ofNat_of_lt' hlt]
      exact hne
    refine ⟨[(some ⟨chosen lib (dtWrite lib) l, .readOnly⟩,
      some ⟨chosen lib (dtWrite lib) l', .writeOnly⟩)], ?_, by simp [hne], ?_⟩
    · have hmoves := hpull ⟨chosen lib (dtWrite lib) l, .readOnly⟩
        ⟨chosen lib (dtWrite lib) l', .writeOnly⟩ clientMem serverMem rfl rfl hlens hlt
      simp only [if_neg hne, if_neg hbytes, hmoves, ← hlens, UInt64.zero_add]
    · intro p hp
      exact ⟨_, _, List.mem_singleton.mp hp, rfl, rfl⟩

/-- **The buffers of the server's selection are disjoint**, and disjoint from its other buffers. -/
theorem disjoint_buffers {malloc : ℕ → UInt64 → UInt64} {l l' : List DataTransfer}
    (hl' : l' = l.mapIdx fun i a => { a with data := malloc i a.dataSize })
    (hfresh : FreshBuffers malloc (l.map DataTransfer.dataSize)) :
    l'.Pairwise fun a b => a.seg.Disjoint b.seg := by
  have hsegs : l'.map DataTransfer.seg
      = (l.map DataTransfer.dataSize).mapIdx fun i size =>
        Seg.mk (malloc i size).toNat size.toNat := by
    subst hl'
    ext i s
    simp [List.getElem?_map, List.getElem?_mapIdx, DataTransfer.seg]
  rw [← List.pairwise_map, hsegs]
  exact hfresh

/-- What the server's memory holds after the write, segment by segment. -/
theorem delivered_of_disjoint {l l' : List DataTransfer} (h : List.Forall₂ Corresponds l l')
    (hdisjoint : l'.Pairwise fun a b => a.seg.Disjoint b.seg) (clientMem serverMem : Mem) :
    List.Forall₂ (fun a b => a.any lib (dtWrite lib) →
      (Mem.scatter (chosen lib (dtWrite lib) l') (clientMem.gather (chosen lib (dtWrite lib) l))
        serverMem).read b.seg = clientMem.read a.seg) l l' := by
  have hcopies := Mem.map_read_scatter_gather clientMem (chosen lib (dtWrite lib) l)
    (chosen lib (dtWrite lib) l') serverMem (map_len_chosen h lib (dtWrite lib))
    (List.pairwise_map.mpr (hdisjoint.filter _))
  refine eq_of_map_filter_eq (fun a b hab => hab.any_eq lib (dtWrite lib)) h ?_
  have hsrc := List.map_map (f := DataTransfer.seg) (g := clientMem.read)
    (l := l.filter (DataTransfer.any lib (dtWrite lib)))
  rw [chosen, List.map_map] at hcopies
  exact hcopies.trans hsrc

/-- What no segment of the write covers stays as it was. -/
theorem untouched_of_disjoint {l l' : List DataTransfer}
    (hdisjoint : l'.Pairwise fun a b => a.seg.Disjoint b.seg) (clientMem serverMem : Mem)
    {b : DataTransfer} (hb : b ∈ l') (hany : ¬ b.any lib (dtWrite lib)) :
    (Mem.scatter (chosen lib (dtWrite lib) l') (clientMem.gather (chosen lib (dtWrite lib) l))
      serverMem).read b.seg = serverMem.read b.seg := by
  refine Mem.read_congr fun addr haddr => Mem.scatter_frame _ _ _ fun s hs => ?_
  obtain ⟨c, hc, rfl⟩ := List.mem_map.mp hs
  obtain ⟨hmem, hcany⟩ := List.mem_filter.mp hc
  have hne : b ≠ c := fun hbc => hany (hbc ▸ hcany)
  have hsymm : Std.Symm fun a b : DataTransfer => a.seg.Disjoint b.seg := ⟨fun _ _ h => h.symm⟩
  exact hdisjoint.forall hb hmem hne addr haddr

/-- The handler loads the message, gives its segments buffers and writes. -/
theorem rpcTaskSubmit_eq (lib : HshmAny) (ar : Format) (pull : Pull) (malloc : ℕ → UInt64 → UInt64)
    (nodeId : NodeId) (xfer prior : SegmentedTransfer) (bulk : Option Bulk) (planned : UInt64)
    (clientMem serverMem : Mem) :
    rpcTaskSubmit lib ar pull malloc nodeId prior ⟨bulk, xfer.bytes ar, planned⟩ clientMem serverMem
      = some (ioCallServerWrite lib pull nodeId bulk
          ((xfer.land prior).allocateBulksServer malloc) clientMem serverMem) := by
  have hload := (SegmentedTransfer.serialize_transmits ar).load xfer prior []
  rw [List.append_nil] at hload
  change (prior.serialize ar (.loading (xfer.bytes ar))).bind _ = _
  rw [hload]
  rfl

end Path

/-- **A segmented write delivers exactly the sender's bytes.** -/
theorem segmentedWrite_delivers (lib : HshmAny) (ar : Format) (pull : Pull)
    (malloc : ℕ → UInt64 → UInt64) (nodeId : NodeId) (xfer prior : SegmentedTransfer)
    (clientMem serverMem : Mem) (hlib : lib.OnWords) (hpull : MovesBytes pull)
    (htotal : totalSize xfer.bulk.1 < 2 ^ 64)
    (hfresh : FreshBuffers malloc (xfer.bulk.1.map DataTransfer.dataSize)) :
    ∃ msg run, ioCallMessage lib ar xfer (dtWrite lib) = some msg ∧
      rpcTaskSubmit lib ar pull malloc nodeId prior msg clientMem serverMem = some (.ok run) ∧
      Delivers lib xfer clientMem serverMem msg run := by
  have hbulk := bulk_allocateBulksServer malloc xfer prior
  have hcorr := forall₂_corresponds malloc xfer.bulk.1
  have hdisjoint := disjoint_buffers hbulk hfresh
  rw [← hbulk] at hcorr
  obtain ⟨pulls, hwrite, hpulls, hpermitted⟩ := ioCallServerWrite_eq hlib hpull hcorr htotal nodeId
    ((xfer.land prior).allocateBulksServer malloc) rfl clientMem serverMem
  have hserve := (rpcTaskSubmit_eq lib ar pull malloc nodeId xfer prior _
    (UInt64.ofNat ((chosen lib (dtWrite lib) xfer.bulk.1).map Seg.len).sum) clientMem
    serverMem).trans (congrArg some hwrite)
  refine ⟨_, _, ioCallMessage_eq hlib ar xfer htotal, hserve, rfl, ?_, rfl, hcorr, ?_, ?_,
    hpermitted⟩
  · rw [hpulls]
    simp
  · intro i a b ha hb
    obtain ⟨hi, rfl⟩ := List.getElem?_eq_some_iff.mp ha
    obtain ⟨hi', rfl⟩ := List.getElem?_eq_some_iff.mp hb
    exact (delivered_of_disjoint hcorr hdisjoint clientMem serverMem).get hi hi'
  · intro b hb
    exact untouched_of_disjoint hdisjoint clientMem serverMem hb

/-- A transport that copies, refusing what it does not permit. -/
def copyingPull : Pull
  | some remote, some loc, remoteMem, localMem =>
    if remote.mode.reads && loc.mode.writes &&
        (remote.segments.map Seg.len).sum == (loc.segments.map Seg.len).sum then
      .ok (UInt64.ofNat (loc.segments.map Seg.len).sum,
        Mem.scatter loc.segments (remoteMem.gather remote.segments) localMem)
    else .error "HG_PERMISSION"
  | _, _, _, _ => .error "HG_INVALID_ARG"

theorem copyingPull_movesBytes : MovesBytes copyingPull := by
  intro remote loc remoteMem localMem hreads hwrites hsize _
  simp [copyingPull, hreads, hwrites, hsize]

/-- An allocator that hands out one page after the other. -/
def pages (i : ℕ) (_size : UInt64) : UInt64 := UInt64.ofNat (4096 * (i + 1))

/-- A segment to write, one that is not, and an empty one. -/
def mixedSegments : SegmentedTransfer :=
  ⟨1, ⟨[⟨dtWrite wordFlags, 100, 2⟩, ⟨wordFlags.bitOpt 2, 200, 3⟩, ⟨dtExpose wordFlags, 300, 0⟩],
    by decide⟩,
    ⟨[7, 7], by decide⟩⟩

theorem pages_fresh : FreshBuffers pages (mixedSegments.bulk.1.map DataTransfer.dataSize) := by
  have hpages : (((mixedSegments.bulk.1.map DataTransfer.dataSize).mapIdx fun i size =>
      Seg.mk (pages i size).toNat size.toNat)).Pairwise
        fun s t => s.addr + s.len ≤ t.addr := by decide
  exact hpages.imp Seg.disjoint_of_le

theorem segmentedWrite_delivers_mixedSegments :
    ∃ msg run, ioCallMessage wordFlags littleEndian mixedSegments (dtWrite wordFlags) = some msg ∧
      rpcTaskSubmit wordFlags littleEndian copyingPull pages 2 noSegment msg UInt8.ofNat
        (fun _ => 0) = some (.ok run) ∧
      Delivers wordFlags mixedSegments UInt8.ofNat (fun _ => 0) msg run :=
  segmentedWrite_delivers wordFlags littleEndian copyingPull pages 2 mixedSegments noSegment
    UInt8.ofNat (fun _ => 0) wordFlags_onWords copyingPull_movesBytes (by decide) pages_fresh

end ChiNettest
