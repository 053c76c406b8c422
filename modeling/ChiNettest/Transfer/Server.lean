import ChiNettest.Machinery.Runs
import ChiNettest.Transfer.Bulk

/-!
# Transfer/Server — a server's memory over all the requests it answers

The handler of `RpcTaskSubmit` gives every segment of a request a buffer, pulls into those the
request writes, answers, and frees none of them.  So its heap grows by the size of every request,
and what one request has delivered no later one overwrites (`delivered_everyState`).

What `malloc` answers while a request is handled is part of the request; that it hands out memory
nobody holds is asked of each step of a run (`Fits`).
-/

namespace ChiNettest

/-! ## The size of a transfer -/

/-- `SegmentedTransfer::size` -/
def SegmentedTransfer.size (xfer : SegmentedTransfer) : UInt64 :=
  xfer.bulk.1.foldl (fun size segment => size + segment.dataSize) 0

/-- The loop of `size`, from any sum: it adds up modulo `2^64`. -/
theorem foldl_dataSize : ∀ (xfers : List DataTransfer) (size : UInt64),
    xfers.foldl (fun size segment => size + segment.dataSize) size
      = size + UInt64.ofNat (totalSize xfers)
  | [], size => (UInt64.add_zero size).symm
  | xfer :: xfers, size => by
      have hcons : totalSize (xfer :: xfers) = xfer.dataSize.toNat + totalSize xfers :=
        List.sum_cons
      rw [List.foldl_cons, foldl_dataSize xfers, hcons, UInt64.ofNat_add, UInt64.ofNat_toNat,
        UInt64.add_assoc]

/-- **`size` is the sum of the sizes of the segments**, where that is a `size_t`. -/
theorem SegmentedTransfer.toNat_size {xfer : SegmentedTransfer}
    (htotal : totalSize xfer.bulk.1 < 2 ^ 64) : xfer.size.toNat = totalSize xfer.bulk.1 := by
  rw [size, foldl_dataSize, UInt64.zero_add]
  exact UInt64.toNat_ofNat_of_lt' htotal

/-! ## Requests and servers -/

/-- A write a client asks a server for. -/
structure Request where
  xfer : SegmentedTransfer
  clientMem : Mem
  /-- the object the server loads the message into -/
  prior : SegmentedTransfer
  /-- what `malloc` answers the server meanwhile -/
  malloc : ℕ → UInt64 → UInt64

/-- The buffers `malloc` hands out for a request. -/
def Request.buffers (req : Request) : List Seg :=
  (req.xfer.bulk.1.map DataTransfer.dataSize).mapIdx fun i size =>
    ⟨(req.malloc i size).toNat, size.toNat⟩

/-- A server process. -/
structure Server where
  mem : Mem
  /-- what `malloc` has handed out and nobody has freed -/
  heap : List Seg
  /-- the requests answered, with the list each was answered on -/
  answered : List (Request × List DataTransfer)

namespace Server

/-- A server that has not answered a request yet. -/
def boot (mem : Mem) : Server := ⟨mem, [], []⟩

/-- **A request is answered**: what the client sends with `IoCall` is handled by `RpcTaskSubmit`,
and the buffers stay allocated.  `none`: the process dies, or no message arrives. -/
def step (lib : HshmAny) (fmt : Format) (pull : Pull) (nodeId : NodeId) (server : Server)
    (req : Request) : Option Server := do
  let msg ← ioCallMessage lib fmt req.xfer (dtWrite lib)
  match ← rpcTaskSubmit lib fmt pull req.malloc nodeId req.prior msg req.clientMem server.mem with
  | .ok run => return {
      mem := run.mem
      heap := server.heap ++ run.xfer.bulk.1.map DataTransfer.seg
      answered := server.answered ++ [(req, run.xfer.bulk.1)] }
  | .error _ => none

/-- **`malloc` hands out memory nobody holds**, and the sizes of a transfer add up in a `size_t`. -/
structure Fits (server : Server) (req : Request) : Prop where
  total : totalSize req.xfer.bulk.1 < 2 ^ 64
  fresh : req.buffers.Pairwise Seg.Disjoint
  apart : ∀ s ∈ server.heap, ∀ b ∈ req.buffers, s.Disjoint b

/-- **What a server has been sent is where it put it**: its buffers are disjoint and those of the
requests it answered, all of them; they hold as many bytes as the requests had; and every segment of
a write still has the bytes its client sent. -/
structure Delivered (lib : HshmAny) (server : Server) : Prop where
  heap : server.heap = server.answered.flatMap fun r => r.2.map DataTransfer.seg
  disjoint : server.heap.Pairwise Seg.Disjoint
  size : (server.heap.map Seg.len).sum = (server.answered.map fun r => r.1.xfer.size.toNat).sum
  delivered : ∀ r ∈ server.answered, List.Forall₂ (fun a b => a.any lib (dtWrite lib) →
    server.mem.read b.seg = r.1.clientMem.read a.seg) r.1.xfer.bulk.1 r.2

/-! ## One request -/

section Step

variable {lib : HshmAny} {fmt : Format} {pull : Pull} {nodeId : NodeId} {server server' : Server}
  {req : Request}

/-- The list a request is answered on. -/
def answeredOn (req : Request) : List DataTransfer :=
  req.xfer.bulk.1.mapIdx fun i a => { a with data := req.malloc i a.dataSize }

theorem map_seg_answeredOn (req : Request) :
    (answeredOn req).map DataTransfer.seg = req.buffers := by
  ext i s
  simp [answeredOn, Request.buffers, List.getElem?_map, List.getElem?_mapIdx, DataTransfer.seg]

/-- **What a request does**: the client's bytes are laid out over the buffers of the segments it
writes. -/
theorem step_eq (hlib : lib.OnWords) (hpull : MovesBytes pull) (hfits : server.Fits req) :
    server.step lib fmt pull nodeId req = some {
      mem := Mem.scatter (chosen lib (dtWrite lib) (answeredOn req))
        (req.clientMem.gather (chosen lib (dtWrite lib) req.xfer.bulk.1)) server.mem
      heap := server.heap ++ req.buffers
      answered := server.answered ++ [(req, answeredOn req)] } := by
  have hbulk := bulk_allocateBulksServer req.malloc req.xfer req.prior
  have hcorr := forall₂_corresponds req.malloc req.xfer.bulk.1
  rw [← hbulk] at hcorr
  obtain ⟨pulls, hwrite, -, -⟩ := ioCallServerWrite_eq hlib hpull hcorr hfits.total nodeId
    ((req.xfer.land req.prior).allocateBulksServer req.malloc) rfl req.clientMem server.mem
  have hserve := (rpcTaskSubmit_eq lib fmt pull req.malloc nodeId req.xfer req.prior _
    (UInt64.ofNat ((chosen lib (dtWrite lib) req.xfer.bulk.1).map Seg.len).sum) req.clientMem
    server.mem).trans (congrArg some hwrite)
  simp only [step, ioCallMessage_eq hlib fmt req.xfer hfits.total, bind, Option.bind_some, hserve]
  rw [hbulk, ← map_seg_answeredOn]
  rfl

/-- What a request leaves of a buffer it was not given. -/
theorem read_scatter (req : Request) (bytes : List UInt8) (mem : Mem) {s : Seg}
    (hapart : ∀ b ∈ req.buffers, s.Disjoint b) :
    (Mem.scatter (chosen lib (dtWrite lib) (answeredOn req)) bytes mem).read s = mem.read s := by
  refine Mem.read_congr fun addr haddr => Mem.scatter_frame _ _ _ fun b hb => ?_
  have hbuffer : b ∈ req.buffers := by
    rw [← map_seg_answeredOn]
    exact (List.filter_sublist.map _).subset hb
  exact hapart b hbuffer addr haddr

/-- The buffers of a request are as long as its segments. -/
theorem sum_len_buffers (req : Request) :
    (req.buffers.map Seg.len).sum = totalSize req.xfer.bulk.1 := by
  rw [← map_seg_answeredOn, List.map_map]
  exact (totalSize_eq (forall₂_corresponds req.malloc req.xfer.bulk.1)).symm

/-- **A request keeps what was delivered before it, and is delivered itself.** -/
theorem Delivered.step (hlib : lib.OnWords) (hpull : MovesBytes pull) (h : server.Delivered lib)
    (hfits : server.Fits req)
    (hstep : server.step lib fmt pull nodeId req = some server') : server'.Delivered lib := by
  rw [step_eq hlib hpull hfits] at hstep
  obtain rfl := Option.some.inj hstep
  have hcorr := forall₂_corresponds req.malloc req.xfer.bulk.1
  have hdisjoint : (answeredOn req).Pairwise fun a b => a.seg.Disjoint b.seg := by
    rw [← List.pairwise_map, map_seg_answeredOn]
    exact hfits.fresh
  constructor
  · rw [List.flatMap_append, h.heap, List.flatMap_singleton, map_seg_answeredOn]
  · exact List.pairwise_append.mpr ⟨h.disjoint, hfits.fresh, hfits.apart⟩
  · rw [List.map_append, List.sum_append, h.size, sum_len_buffers, List.map_append,
      List.sum_append, List.map_singleton, List.sum_singleton,
      SegmentedTransfer.toNat_size hfits.total]
  · intro r hr
    rcases List.mem_append.mp hr with hold | hnew
    · obtain ⟨hlength, hpairs⟩ := List.forall₂_iff_zip.mp (h.delivered r hold)
      refine List.forall₂_iff_zip.mpr ⟨hlength, fun {a b} hab hany => ?_⟩
      have hheap : b.seg ∈ server.heap := by
        rw [h.heap]
        exact List.mem_flatMap.mpr ⟨r, hold, List.mem_map_of_mem (List.of_mem_zip hab).2⟩
      exact (read_scatter req _ server.mem (hfits.apart _ hheap)).trans (hpairs hab hany)
    · obtain rfl := List.mem_singleton.mp hnew
      exact delivered_of_disjoint hcorr hdisjoint req.clientMem server.mem

end Step

theorem delivered_boot (lib : HshmAny) (mem : Mem) : (boot mem).Delivered lib :=
  ⟨rfl, .nil, rfl, fun _ hr => absurd hr List.not_mem_nil⟩

end Server

/-- **What a server has been sent stays where it put it, over every run of requests**, and it
answers whatever request `malloc` has memory for. -/
theorem delivered_everyState {lib : HshmAny} (hlib : lib.OnWords) (fmt : Format) {pull : Pull}
    (hpull : MovesBytes pull) (nodeId : NodeId) (mem : Mem) {reqs : List Request}
    (hfits : EveryStep (Server.step lib fmt pull nodeId) Server.Fits (.boot mem) reqs) :
    EveryState (Server.step lib fmt pull nodeId)
      (fun server => server.Delivered lib ∧
        ∀ req, server.Fits req → (server.step lib fmt pull nodeId req).isSome)
      (.boot mem) reqs := by
  have hdelivered : EveryState (Server.step lib fmt pull nodeId) (Server.Delivered lib) (.boot mem)
      reqs :=
    everyState_of_everyStep (fun _ _ _ h hfits hstep => h.step hlib hpull hfits hstep)
      (Server.delivered_boot lib mem) hfits
  refine hdelivered.mono fun server h => ⟨h, fun req hfits => ?_⟩
  rw [Server.step_eq hlib hpull hfits]
  rfl

/-- The same transfer twice, into pages one after the other. -/
def twoRequests : List Request :=
  [⟨mixedSegments, UInt8.ofNat, noSegment, pages⟩,
    ⟨mixedSegments, fun _ => 9, oneSegment, fun i => pages (i + 3)⟩]

theorem delivered_everyState_twoRequests :
    EveryState (Server.step wordFlags littleEndian copyingPull 2)
      (fun server => server.Delivered wordFlags ∧ ∀ req, server.Fits req →
        (server.step wordFlags littleEndian copyingPull 2 req).isSome) (.boot fun _ => 0)
        twoRequests := by
  refine delivered_everyState wordFlags_onWords littleEndian copyingPull_movesBytes 2 _
    fun server hserver => ?_
  have hfirst : (Server.boot fun _ => 0).Fits ⟨mixedSegments, UInt8.ofNat, noSegment, pages⟩ :=
    ⟨by decide, pages_fresh, fun _ hs => absurd hs List.not_mem_nil⟩
  refine ⟨hfirst, fun server' _ => ⟨⟨by decide, ?_, ?_⟩, trivial⟩⟩
  · have hpages : (Request.mk mixedSegments (fun _ => 9) oneSegment fun i => pages (i + 3)).buffers
        |>.Pairwise fun s t => s.addr + s.len ≤ t.addr := by decide
    exact hpages.imp Seg.disjoint_of_le
  · rw [Server.step_eq wordFlags_onWords copyingPull_movesBytes hfirst] at hserver
    obtain rfl := Option.some.inj hserver
    have hpages : ∀ s ∈ (Request.mk mixedSegments UInt8.ofNat noSegment pages).buffers,
        ∀ b ∈ (Request.mk mixedSegments (fun _ => 9) oneSegment fun i => pages (i + 3)).buffers,
          s.addr + s.len ≤ b.addr := by decide
    exact fun s hs b hb => Seg.disjoint_of_le (hpages s hs b hb)

end ChiNettest
