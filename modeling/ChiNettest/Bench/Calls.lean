import ChiNettest.Thallium.Caller
import ChiNettest.Transfer.Bulk

/-!
# Bench/Calls — the calls `IoCalls` and `MetadataCalls` issue, and the operations they report

Both loop over the nodes and, for each node, over an `int i` up to the number of repetitions
(`callLoop`).  They differ in what that number is.  `IoCalls` keeps the `size_t` it is given, so an
`int` has to count up to it and overflows from `2 ^ 31` on.  `MetadataCalls` takes an `int`, so main
truncates the `size_t` of the configuration when it calls it.

Below `2 ^ 31` repetitions the counter runs through `0, …, rep - 1` in both (`run_callLoop`), and
that is also the exact condition for either to do the work it reports
(`ioCalls_performs_iff`, `metadataCalls_performs_iff`).
-/

namespace ChiNettest

open Prog

/-! ## I/O calls -/

/-- The bytes of data an I/O call carries: the metadata, and what it exposes for the server. -/
def ioPayload (lib : HshmAny) (xfer : SegmentedTransfer) (ioFlag : UInt32) : ℕ :=
  xfer.md.1.length + (makeBulkClient lib xfer.bulk.1 ioFlag).2.toNat

section IoCall

variable (lib : HshmAny) (net : ℕ → NodeId → CallOutcome) (ctx : RpcContext)

/-- `ThalliumRpc::IoCall`, which takes the node as an `i32`. -/
def ioCall (nodeId : Int32) (funcName : String) (xfer : SegmentedTransfer) (ioFlag : UInt32) :
    CallerProg AsyncResponse :=
  issueCall net ctx nodeId.toUInt32 funcName (ioPayload lib xfer ioFlag)

/-- `ThalliumRpc::AsyncIoCall` -/
def asyncIoCall (nodeId : NodeId) (funcName : String) (xfer : SegmentedTransfer)
    (ioFlag : UInt32) : CallerProg AsyncResponse :=
  ioCall lib net ctx nodeId.toInt32 funcName xfer ioFlag

/-- `ThalliumRpc::SyncIoCall<int>` -/
def syncIoCall (nodeId : NodeId) (funcName : String) (xfer : SegmentedTransfer)
    (ioFlag : UInt32) : CallerProg Unit := do
  let resp ← ioCall lib net ctx nodeId.toInt32 funcName xfer ioFlag
  if net resp.id nodeId = .waitRaises then throw .margo

/-- **An I/O call is a call that carries its payload**: the node survives the `i32`. -/
theorem asyncIoCall_eq (nodeId : NodeId) (funcName : String) (xfer : SegmentedTransfer)
    (ioFlag : UInt32) :
    asyncIoCall lib net ctx nodeId funcName xfer ioFlag
      = asyncCall net ctx nodeId funcName (ioPayload lib xfer ioFlag) := by
  rw [asyncIoCall, ioCall, UInt32.toUInt32_toInt32, asyncCall]

theorem syncIoCall_eq (nodeId : NodeId) (funcName : String) (xfer : SegmentedTransfer)
    (ioFlag : UInt32) :
    syncIoCall lib net ctx nodeId funcName xfer ioFlag
      = syncCall net ctx nodeId funcName (ioPayload lib xfer ioFlag) := by
  rw [syncIoCall, ioCall, UInt32.toUInt32_toInt32, syncCall]

end IoCall

/-! ## The program -/

/-- The memory of a run. -/
structure Heap where
  /-- `max_size()` of a vector of responses -/
  vectorMax : ℕ
  /-- `max_size()` of a string -/
  stringMax : ℕ
  malloc : UInt64 → UInt64
  /-- what an uninitialised `NodeId` holds -/
  garbage : NodeId

/-- `responses.reserve(size)` -/
def Heap.reserve (heap : Heap) (size : UInt64) : CallerProg Unit :=
  if size.toNat ≤ heap.vectorMax then pure () else throw .lengthError

/-- `std::string(size, 1)` -/
def Heap.string (heap : Heap) (size : UInt64) : CallerProg (Vec UInt8) :=
  if size.toNat ≤ heap.stringMax then
    pure ⟨List.replicate size.toNat 1, by rw [List.length_replicate]; exact size.toNat_lt⟩
  else throw .lengthError

/-- `for (int i = 0; test(i); ++i) body` -/
def forReps (test : ℤ → Bool) (body : CallerProg Unit) (fuel : ℕ) : CallerProg Unit :=
  forLoop test (fun i => lift (incInt i)) (fun _ => body) fuel 0

/-- The part `IoCalls` and `MetadataCalls` share: room for the responses, `one` call to each node
for each repetition, and the wait for all of them. -/
def callLoop (async : Bool) (net : ℕ → NodeId → CallOutcome) (heap : Heap) (n : ℕ) (size : UInt64)
    (test : ℤ → Bool) (one : NodeId → CallerProg Unit) (fuel : ℕ) : CallerProg Unit := do
  heap.reserve size
  forNodes n (fun nodeId => forReps test (one nodeId) fuel) fuel
  if async then
    let s ← get
    forEach s.responses (wait net)

/-- The message `IoCalls` sends: metadata, and one segment to write. -/
def ioTransfer (lib : HshmAny) (heap : Heap) (md : Vec UInt8) (ioSize : UInt64) :
    SegmentedTransfer :=
  ⟨heap.garbage, ⟨[⟨dtWrite lib, heap.malloc ioSize, ioSize⟩], Nat.one_lt_two_pow (by decide)⟩,
    md⟩

section Program

variable (lib : HshmAny) (async : Bool) (net : ℕ → NodeId → CallOutcome) (ctx : RpcContext)
  (heap : Heap)

/-- The body of the inner loop of `IoCalls`. -/
def ioOnce (xfer : SegmentedTransfer) (nodeId : NodeId) : CallerProg Unit :=
  if async then do
    let ret ← asyncIoCall lib net ctx nodeId "RpcTaskSubmit" xfer (dtWrite lib)
    modify (·.emplaceBack ret)
  else syncIoCall lib net ctx nodeId "RpcTaskSubmit" xfer (dtWrite lib)

/-- The body of the inner loop of `MetadataCalls`. -/
def metadataOnce (md : Vec UInt8) (nodeId : NodeId) : CallerProg Unit :=
  if async then postCall net ctx "RpcPing" md.1.length nodeId
  else syncCall net ctx nodeId "RpcPing" md.1.length

/-- `TestRunner::IoCalls<ASYNC>`, and the operations it reports. -/
def ioCalls (mdSize ioSize rep : UInt64) (fuel : ℕ) : CallerProg UInt64 := do
  modify Caller.enter
  let md ← heap.string mdSize
  let xfer := ioTransfer lib heap md ioSize
  let numHosts := UInt64.ofNat ctx.numHosts
  callLoop async net heap ctx.numHosts (numHosts * rep)
    -- the `int` is converted to the `size_t` it is compared with
    (fun i => UInt64.ofInt i < rep) (ioOnce lib async net ctx xfer) fuel
  return numHosts * rep * (ioSize + mdSize)

/-- `TestRunner::MetadataCalls<ASYNC>`, and the operations it reports. -/
def metadataCalls (mdSize : UInt64) (rep : ℤ) (fuel : ℕ) : CallerProg UInt64 := do
  modify Caller.enter
  let md ← heap.string mdSize
  let numHosts := UInt64.ofNat ctx.numHosts
  callLoop async net heap ctx.numHosts (numHosts * UInt64.ofInt rep)
    (fun i => i < rep) (metadataOnce async net ctx md) fuel
  return numHosts * UInt64.ofInt rep

end Program

/-- A `size_t` passed where an `int` is expected: its low 32 bits, in two's complement. -/
def intOfSize (size : UInt64) : ℤ :=
  let low : ℕ := size.toNat % 2 ^ 32
  if low < 2 ^ 31 then low else (low : ℤ) - 2 ^ 32

/-! ## The loops -/

section Loops

variable {net : NodeId → CallOutcome} {ctx : RpcContext}

/-- What a call of a variant leaves behind. -/
def Caller.leave (async : Bool) (s : Caller) (call : IssuedCall) : Caller :=
  if async then s.post call else s.issue call

theorem foldl_issue : ∀ (calls : List IssuedCall) (s : Caller),
    calls.foldl Caller.issue s = { s with issued := s.issued ++ calls }
  | [], s => by simp
  | call :: calls, s => by
      rw [List.foldl_cons, foldl_issue calls]
      simp [Caller.issue]

/-- The counter of the repetitions, from `k` on. -/
theorem counts_reps {test : ℤ → Bool} {c : ℕ} (hc : c < 2 ^ 31)
    (htest : ∀ i : ℕ, i ≤ c → test i = decide (i < c)) :
    ∀ {k m : ℕ}, k + m = c → Counts (ε := Exn) (σ := Caller) test (fun i => lift (incInt i)) (k : ℤ)
      ((List.range' k m).map Int.ofNat)
  | k, 0, hkm => .stop (by rw [htest k (by omega)]; exact decide_eq_false (by omega))
  | k, m + 1, hkm => by
      have hinc : incInt (k : ℤ) = .ok (k + 1 : ℕ) := by
        rw [incInt, if_neg (by omega)]
        rfl
      refine .step ?_ (congrArg lift hinc) (counts_reps hc htest (by omega))
      rw [htest k (by omega)]
      exact decide_eq_true (by omega)

/-- **The repetitions for one node**: `c` times the same call. -/
theorem run_forReps {async : Bool} {test : ℤ → Bool} {c fuel : ℕ} (hc : c < 2 ^ 31)
    (hfuel : c < fuel) (htest : ∀ i : ℕ, i ≤ c → test i = decide (i < c))
    {body : CallerProg Unit} {call : IssuedCall}
    (hbody : ∀ s, body.run s = some (.ok (), s.leave async call)) (s : Caller) :
    (forReps test body fuel).run s
      = some (.ok (), (List.replicate c call).foldl (Caller.leave async) s) := by
  have hloop : forReps test body fuel
      = forEach ((List.range' 0 c).map Int.ofNat) fun _ => body :=
    forLoop_eq_forEach (counts_reps hc htest (Nat.zero_add c)) (by simpa using hfuel)
  have hcalls : ((List.range' 0 c).map Int.ofNat).map (fun _ => call) = List.replicate c call := by
    rw [List.map_const', List.length_map, List.length_range']
  rw [hloop, run_forEach_ok _ s fun _ _ t => hbody t, ← hcalls]
  simp only [List.foldl_map]

/-- The calls of a run: `c` to each node, in node order. -/
def repeatedCalls (n c : ℕ) (call : NodeId → IssuedCall) : List IssuedCall :=
  (nodeIds n).flatMap fun nodeId => List.replicate c (call nodeId)

theorem length_repeatedCalls (n c : ℕ) (call : NodeId → IssuedCall) :
    (repeatedCalls n c call).length = n * c := by
  simp [repeatedCalls, List.length_flatMap]

/-- **What a run leaves behind** when it has issued `calls`. -/
def leftBehind (async : Bool) (calls : List IssuedCall) : Caller :=
  if async then
    { issued := calls
      waited := List.range' 0 calls.length
      responses := responsesOf 0 calls }
  else { issued := calls }

/-- Calls to nodes that answer have responses from such nodes. -/
theorem answers_of_mem_responses {n c : ℕ} {call : NodeId → IssuedCall}
    (hcall : ∀ nodeId, (call nodeId).nodeId = nodeId)
    (hnet : ∀ nodeId ∈ nodeIds n, net nodeId = .answers) :
    ∀ resp ∈ responsesOf 0 (repeatedCalls n c call), net resp.nodeId = .answers := by
  intro resp hresp
  have hnode := List.mem_map_of_mem (f := AsyncResponse.nodeId) hresp
  rw [map_nodeId_responsesOf] at hnode
  obtain ⟨issued, hissued, hid⟩ := List.mem_map.mp hnode
  obtain ⟨m, hm, hrep⟩ := List.mem_flatMap.mp hissued
  rw [← hid, List.eq_of_mem_replicate hrep, hcall, hnet m hm]

/-- The wait for all responses, when the nodes answer, waits for each once. -/
theorem run_waits {n c : ℕ} {call : NodeId → IssuedCall}
    (hcall : ∀ nodeId, (call nodeId).nodeId = nodeId)
    (hnet : ∀ nodeId ∈ nodeIds n, net nodeId = .answers) :
    (forEach (responsesOf 0 (repeatedCalls n c call)) (wait fun _ => net)).run
        { issued := repeatedCalls n c call
          responses := responsesOf 0 (repeatedCalls n c call) }
      = some (.ok (), leftBehind true (repeatedCalls n c call)) := by
  have hanswers : ∀ resp ∈ responsesOf 0 (repeatedCalls n c call),
      net resp.nodeId ≠ .waitRaises := by
    intro resp hresp
    rw [answers_of_mem_responses hcall hnet resp hresp]
    exact CallOutcome.noConfusion
  have hone : ∀ resp ∈ responsesOf 0 (repeatedCalls n c call), ∀ t : Caller,
      (wait (fun _ => net) resp).run t = some (.ok (), t.await resp.id) :=
    fun resp hresp t => run_wait_ok (hanswers resp hresp)
  have hwaits := run_forEach_ok (responsesOf 0 (repeatedCalls n c call))
    { issued := repeatedCalls n c call, responses := responsesOf 0 (repeatedCalls n c call) } hone
  rw [foldl_await, map_id_responsesOf] at hwaits
  exact hwaits

/-- **A run of the shared part issues `c` calls to each node and waits for every response**, when
the repetitions for a node are `c` calls to it, and none fails. -/
theorem run_callLoop {async : Bool} {heap : Heap} {n c fuel : ℕ} {size : UInt64} {test : ℤ → Bool}
    {one : NodeId → CallerProg Unit} {call : NodeId → IssuedCall} (hn : n < 2 ^ 31)
    (hfuel : n < fuel) (hroom : size.toNat ≤ heap.vectorMax)
    (hcall : ∀ nodeId, (call nodeId).nodeId = nodeId)
    (hreps : ∀ nodeId ∈ nodeIds n, ∀ s, (forReps test (one nodeId) fuel).run s
      = some (.ok (), (List.replicate c (call nodeId)).foldl (Caller.leave async) s))
    (hnet : ∀ nodeId ∈ nodeIds n, net nodeId = .answers) :
    (callLoop async (fun _ => net) heap n size test one fuel).run {}
      = some (.ok (), leftBehind async (repeatedCalls n c call)) := by
  have hreserve : (heap.reserve size).run {} = some (.ok (), {}) := by
    rw [Heap.reserve, if_pos hroom, run_pure]
  have hloop : (forNodes n (fun nodeId => forReps test (one nodeId) fuel) fuel).run {}
      = some (.ok (), (repeatedCalls n c call).foldl (Caller.leave async) {}) := by
    rw [forNodes_eq_forEach (by omega) hfuel, run_forEach_ok _ _ hreps, repeatedCalls,
      List.foldl_flatMap]
  rw [callLoop, run_bind_ok hreserve, run_bind_ok hloop]
  cases async with
  | false =>
    have hissues : (repeatedCalls n c call).foldl (Caller.leave false) {}
        = leftBehind false (repeatedCalls n c call) := foldl_issue _ {}
    rw [hissues]
    rfl
  | true =>
    have hposts : (repeatedCalls n c call).foldl (Caller.leave true) {}
        = { issued := repeatedCalls n c call
            responses := responsesOf 0 (repeatedCalls n c call) } := foldl_post _ {}
    rw [hposts]
    exact run_waits hcall hnet

/-- The shared part with more fuel ends wherever it ended. -/
theorem callLoop_le {async : Bool} {heap : Heap} {n fuel fuel' : ℕ} {size : UInt64}
    {test : ℤ → Bool} {one : NodeId → CallerProg Unit} (hle : fuel ≤ fuel') :
    Le (callLoop async (fun _ => net) heap n size test one fuel)
      (callLoop async (fun _ => net) heap n size test one fuel') := by
  have hreps : ∀ nodeId, Le (forReps test (one nodeId) fuel) (forReps test (one nodeId) fuel') :=
    fun nodeId => Le.forLoop (fun _ => Le.refl _) hle 0
  exact (Le.refl _).bind fun _ => (forNodes_le hreps hle).bind fun _ => Le.refl _

end Loops

/-! ## Sizes -/

section Sizes

/-- A non-negative `int` that fits the `size_t` it is converted to. -/
theorem toNat_sizeOfInt {n : ℕ} (h : n < 2 ^ 64) : (UInt64.ofInt n).toNat = n := by
  have hmod : ((n : ℤ) % 2 ^ 64).toNat = n := by omega
  rw [UInt64.ofInt, hmod, UInt64.toNat_ofNat_of_lt' h]

/-- Below `2 ^ 31` the `int` is the `size_t`. -/
theorem intOfSize_eq {size : UInt64} (h : size.toNat < 2 ^ 31) : intOfSize size = size.toNat := by
  have hlow : size.toNat % 2 ^ 32 = size.toNat := Nat.mod_eq_of_lt (by omega)
  simp only [intOfSize, hlow, if_pos h]

/-- An `int` is below `2 ^ 31`. -/
theorem intOfSize_lt (size : UInt64) : intOfSize size < 2 ^ 31 := by
  have hlow : size.toNat % 2 ^ 32 < 2 ^ 32 := Nat.mod_lt _ (by decide)
  rw [intOfSize]
  split <;> omega

/-- `NumHosts() * rep` where it fits. -/
theorem toNat_numHosts_mul {n : ℕ} {rep : UInt64} (hn : n < 2 ^ 31)
    (hops : n * rep.toNat < 2 ^ 64) : (UInt64.ofNat n * rep).toNat = n * rep.toNat := by
  rw [UInt64.toNat_mul, UInt64.toNat_ofNat_of_lt' (show n < 2 ^ 64 by omega),
    Nat.mod_eq_of_lt hops]

/-- `NumHosts() * rep` where it fits, the `size_t` having passed through an `int`. -/
theorem toNat_numHosts_mul_int {n : ℕ} {rep : UInt64} (hn : n < 2 ^ 31)
    (hops : n * rep.toNat < 2 ^ 64) (hrep : n = 0 ∨ rep.toNat < 2 ^ 31) :
    (UInt64.ofNat n * UInt64.ofInt (intOfSize rep)).toNat = n * rep.toNat := by
  rcases hrep with rfl | hlt
  · rw [Nat.zero_mul, UInt64.toNat_mul]
    exact congrArg (· % 2 ^ 64) (Nat.zero_mul _)
  · have hsame : UInt64.ofInt (intOfSize rep) = rep := by
      rw [← UInt64.toNat_inj, intOfSize_eq hlt, toNat_sizeOfInt (by omega)]
    rw [hsame, toNat_numHosts_mul hn hops]

/-- `NumHosts() * rep * (io_size + md_size)` where it fits. -/
theorem toNat_ops {n : ℕ} {rep ioSize mdSize : UInt64} (hn : n < 2 ^ 31)
    (hops : n * rep.toNat < 2 ^ 64)
    (hbytes : n * rep.toNat * (ioSize.toNat + mdSize.toNat) < 2 ^ 64) :
    (UInt64.ofNat n * rep * (ioSize + mdSize)).toNat
      = n * rep.toNat * (ioSize.toNat + mdSize.toNat) := by
  rw [UInt64.toNat_mul, toNat_numHosts_mul hn hops, UInt64.toNat_add]
  rcases Nat.eq_zero_or_pos (n * rep.toNat) with hzero | hpos
  · rw [hzero, Nat.zero_mul, Nat.zero_mul, Nat.zero_mod]
  · have hsum : ioSize.toNat + mdSize.toNat < 2 ^ 64 :=
      lt_of_le_of_lt (Nat.le_mul_of_pos_left _ hpos) hbytes
    rw [Nat.mod_eq_of_lt hsum, Nat.mod_eq_of_lt hbytes]

end Sizes

/-! ## The work done and the work reported -/

section Performing

variable (lib : HshmAny) (async : Bool) (net : NodeId → CallOutcome) (ctx : RpcContext)
  (heap : Heap)

/-- **A run has issued `rep` calls to each node in node order, and waited once for each response it
kept.** -/
def Performed (n rep : ℕ) (call : NodeId → IssuedCall) (s : Caller) : Prop :=
  s.issued = repeatedCalls n rep call ∧
    s.waited = if async then List.range s.issued.length else []

/-- **`IoCalls` does the work it reports**: it ends with its calls performed, and reports the bytes
they carried. -/
def IoCallsPerforms (mdSize ioSize rep : UInt64) : Prop :=
  ∃ fuel ops s, (ioCalls lib async (fun _ => net) ctx heap mdSize ioSize rep fuel).run {}
      = some (.ok ops, s) ∧
    Performed async ctx.numHosts rep.toNat
      (fun nodeId => ⟨nodeId, "RpcTaskSubmit", mdSize.toNat + ioSize.toNat⟩) s ∧
    ops.toNat = (s.issued.map IssuedCall.payload).sum

/-- **`MetadataCalls`, as main calls it, does the work it reports**: it ends with its calls
performed, and reports their number. -/
def MetadataCallsPerforms (mdSize rep : UInt64) : Prop :=
  ∃ fuel ops s, (metadataCalls async (fun _ => net) ctx heap mdSize (intOfSize rep) fuel).run {}
      = some (.ok ops, s) ∧
    Performed async ctx.numHosts rep.toNat (fun nodeId => ⟨nodeId, "RpcPing", mdSize.toNat⟩) s ∧
    ops.toNat = ctx.numHosts * rep.toNat

end Performing

section Results

variable {lib : HshmAny} {async : Bool} {net : NodeId → CallOutcome} {ctx : RpcContext}
  {heap : Heap}

theorem performed_leftBehind (n rep : ℕ) (call : NodeId → IssuedCall) :
    Performed async n rep call (leftBehind async (repeatedCalls n rep call)) := by
  cases async with
  | false => exact ⟨rfl, rfl⟩
  | true => exact ⟨rfl, List.range_eq_range'.symm⟩

theorem issued_leftBehind (calls : List IssuedCall) : (leftBehind async calls).issued = calls := by
  cases async <;> rfl

/-- The message of `IoCalls` carries its metadata and its segment. -/
theorem ioPayload_ioTransfer (hlib : lib.OnWords) (heap : Heap) (md : Vec UInt8)
    (ioSize : UInt64) :
    ioPayload lib (ioTransfer lib heap md ioSize) (dtWrite lib)
      = md.1.length + ioSize.toNat := by
  simp only [ioPayload, ioTransfer, makeBulkClient, makeBulk, selectSegments, DataTransfer.any,
    any_dtWrite hlib, if_true, UInt64.zero_add]

theorem sum_payload_repeatedCalls {n c payload : ℕ} {call : NodeId → IssuedCall}
    (hcall : ∀ nodeId, (call nodeId).payload = payload) :
    ((repeatedCalls n c call).map IssuedCall.payload).sum = n * c * payload := by
  have hall : ∀ p ∈ (repeatedCalls n c call).map IssuedCall.payload, p = payload := by
    intro p hp
    obtain ⟨issued, hissued, rfl⟩ := List.mem_map.mp hp
    obtain ⟨m, -, hrep⟩ := List.mem_flatMap.mp hissued
    rw [List.eq_of_mem_replicate hrep, hcall]
  rw [List.eq_replicate_of_mem hall, List.sum_replicate_nat, List.length_map,
    length_repeatedCalls]

theorem run_string {size : UInt64} (hroom : size.toNat ≤ heap.stringMax) (s : Caller) :
    ∃ md : Vec UInt8, md.1.length = size.toNat ∧
      (heap.string size).run s = some (.ok md, s) := by
  refine ⟨⟨List.replicate size.toNat 1, by rw [List.length_replicate]; exact size.toNat_lt⟩,
    List.length_replicate, ?_⟩
  rw [Heap.string, if_pos hroom, run_pure]

/-- One call of `IoCalls`. -/
theorem run_ioOnce {xfer : SegmentedTransfer} {nodeId : NodeId} {payload : ℕ}
    (hgood : ¬ BadNode ctx.hosts nodeId) (hnet : net nodeId = .answers)
    (hpayload : ioPayload lib xfer (dtWrite lib) = payload) (s : Caller) :
    (ioOnce lib async (fun _ => net) ctx xfer nodeId).run s
      = some (.ok (), s.leave async ⟨nodeId, "RpcTaskSubmit", payload⟩) := by
  rw [ioOnce, asyncIoCall_eq, syncIoCall_eq, hpayload]
  cases async with
  | false => exact run_syncCall_ok hgood hnet _ _
  | true => exact run_postCall_ok hgood (by simp [hnet]) _ _

/-- One call of `MetadataCalls`. -/
theorem run_metadataOnce {md : Vec UInt8} {nodeId : NodeId} {payload : ℕ}
    (hgood : ¬ BadNode ctx.hosts nodeId) (hnet : net nodeId = .answers)
    (hpayload : md.1.length = payload) (s : Caller) :
    (metadataOnce async (fun _ => net) ctx md nodeId).run s
      = some (.ok (), s.leave async ⟨nodeId, "RpcPing", payload⟩) := by
  rw [metadataOnce, hpayload]
  cases async with
  | false => exact run_syncCall_ok hgood hnet _ _
  | true => exact run_postCall_ok hgood (by simp [hnet]) _ _

/-- **`IoCalls` below `2 ^ 31` repetitions.** -/
theorem run_ioCalls (hlib : lib.OnWords) {mdSize ioSize rep : UInt64} {fuel : ℕ}
    (hn : ctx.numHosts < 2 ^ 31) (hstring : mdSize.toNat ≤ heap.stringMax)
    (hroom : (UInt64.ofNat ctx.numHosts * rep).toNat ≤ heap.vectorMax)
    (hrep : ctx.numHosts = 0 ∨ rep.toNat < 2 ^ 31) (hfuel : max ctx.numHosts rep.toNat < fuel)
    (hnet : ∀ nodeId ∈ nodeIds ctx.numHosts, net nodeId = .answers) :
    (ioCalls lib async (fun _ => net) ctx heap mdSize ioSize rep fuel).run {}
      = some (.ok (UInt64.ofNat ctx.numHosts * rep * (ioSize + mdSize)),
          leftBehind async (repeatedCalls ctx.numHosts rep.toNat fun nodeId =>
            ⟨nodeId, "RpcTaskSubmit", mdSize.toNat + ioSize.toNat⟩)) := by
  obtain ⟨md, hlen, hmd⟩ := run_string hstring ({} : Caller)
  have hpayload :=
    (ioPayload_ioTransfer hlib heap md ioSize).trans (congrArg (· + ioSize.toNat) hlen)
  have hreps : ∀ nodeId ∈ nodeIds ctx.numHosts, ∀ s : Caller,
      (forReps (fun i => UInt64.ofInt i < rep)
        (ioOnce lib async (fun _ => net) ctx (ioTransfer lib heap md ioSize) nodeId) fuel).run s
      = some (.ok (), (List.replicate rep.toNat
          ⟨nodeId, "RpcTaskSubmit", mdSize.toNat + ioSize.toNat⟩).foldl
            (Caller.leave async) s) := by
    intro m hm s
    have hne : ctx.numHosts ≠ 0 := fun hzero => by rw [hzero] at hm; exact List.not_mem_nil hm
    have hlt : rep.toNat < 2 ^ 31 := hrep.resolve_left hne
    refine run_forReps hlt (lt_of_le_of_lt (le_max_right _ _) hfuel) (fun i hi => ?_)
      (run_ioOnce (not_badNode_of_mem_nodeIds (by omega) hm) (hnet m hm) hpayload) s
    exact decide_eq_decide.mpr (by rw [UInt64.lt_iff_toNat_lt, toNat_sizeOfInt (by omega)])
  have hloop := run_callLoop hn (lt_of_le_of_lt (le_max_left _ _) hfuel) hroom (fun _ => rfl)
    hreps hnet
  rw [ioCalls, run_bind_ok (run_modify _ _)]
  exact (run_bind_ok hmd).trans (run_bind_ok hloop)

/-- **`MetadataCalls` counting to `c`.** -/
theorem run_metadataCalls {mdSize : UInt64} {rep : ℤ} {c fuel : ℕ} (hn : ctx.numHosts < 2 ^ 31)
    (hstring : mdSize.toNat ≤ heap.stringMax)
    (hroom : (UInt64.ofNat ctx.numHosts * UInt64.ofInt rep).toNat ≤ heap.vectorMax)
    (hrep : ctx.numHosts = 0 ∨ rep.toNat = c) (hc : ctx.numHosts = 0 ∨ c < 2 ^ 31)
    (hfuel : max ctx.numHosts c < fuel)
    (hnet : ∀ nodeId ∈ nodeIds ctx.numHosts, net nodeId = .answers) :
    (metadataCalls async (fun _ => net) ctx heap mdSize rep fuel).run {}
      = some (.ok (UInt64.ofNat ctx.numHosts * UInt64.ofInt rep),
          leftBehind async (repeatedCalls ctx.numHosts c fun nodeId =>
            ⟨nodeId, "RpcPing", mdSize.toNat⟩)) := by
  obtain ⟨md, hlen, hmd⟩ := run_string hstring ({} : Caller)
  have hreps : ∀ nodeId ∈ nodeIds ctx.numHosts, ∀ s : Caller,
      (forReps (fun i => i < rep) (metadataOnce async (fun _ => net) ctx md nodeId) fuel).run s
      = some (.ok (), (List.replicate c ⟨nodeId, "RpcPing", mdSize.toNat⟩).foldl
          (Caller.leave async) s) := by
    intro m hm s
    have hne : ctx.numHosts ≠ 0 := fun hzero => by rw [hzero] at hm; exact List.not_mem_nil hm
    have hcount : rep.toNat = c := hrep.resolve_left hne
    refine run_forReps (hc.resolve_left hne) (lt_of_le_of_lt (le_max_right _ _) hfuel)
      (fun i hi => ?_)
      (run_metadataOnce (not_badNode_of_mem_nodeIds (by omega) hm) (hnet m hm) hlen) s
    exact decide_eq_decide.mpr (by rw [← hcount, Int.lt_toNat])
  have hloop := run_callLoop hn (lt_of_le_of_lt (le_max_left _ _) hfuel) hroom (fun _ => rfl)
    hreps hnet
  rw [metadataCalls, run_bind_ok (run_modify _ _)]
  exact (run_bind_ok hmd).trans (run_bind_ok hloop)

/-- A node loop over a host that returns has returned from its first iteration. -/
theorem of_forNodes_ok {n fuel : ℕ} {body : NodeId → CallerProg Unit} {s t : Caller}
    (hpos : 0 < n) (h : (forNodes n body fuel).run s = some (.ok (), t)) :
    ∃ t', (body 1).run s = some (.ok (), t') := by
  obtain _ | fuel := fuel
  · simp [forNodes, forLoop] at h
  · have htest : decide ((1 : NodeId).toNat ≤ n) = true := decide_eq_true hpos
    rw [forNodes, forLoop, if_pos htest] at h
    obtain ⟨_, t', hbody, -⟩ := of_run_bind_ok h
    exact ⟨t', hbody⟩

/-- **Repetitions that end have failed their test at an `int`.** -/
theorem exists_int_of_forReps_ok {test : ℤ → Bool} {body : CallerProg Unit} {fuel : ℕ}
    {s t : Caller} (h : (forReps test body fuel).run s = some (.ok (), t)) :
    ∃ i : ℤ, (0 ≤ i ∧ i < 2 ^ 31) ∧ test i = false := by
  refine exists_exit_of_forLoop_ok (I := fun i : ℤ => 0 ≤ i ∧ i < 2 ^ 31) ?_ fuel 0 s t
    ⟨le_rfl, by norm_num⟩ h
  rintro i j u v ⟨hi, hlt⟩ - hstep
  have hinc : incInt i = .ok j := (Prod.mk.inj (Option.some.inj hstep)).1
  obtain ⟨rfl, hne⟩ := incInt_eq_ok hinc
  omega

/-- `MetadataCalls` with more fuel ends wherever it ended. -/
theorem metadataCalls_le {mdSize : UInt64} {rep : ℤ} {fuel fuel' : ℕ} (hle : fuel ≤ fuel') :
    Le (metadataCalls async (fun _ => net) ctx heap mdSize rep fuel)
      (metadataCalls async (fun _ => net) ctx heap mdSize rep fuel') :=
  (Le.refl _).bind fun _ => (Le.refl _).bind fun _ => (callLoop_le hle).bind fun _ => Le.refl _

/-- A `MetadataCalls` that ends normally has had room for its responses. -/
theorem room_of_metadataCalls_ok {mdSize : UInt64} {rep : ℤ} {fuel : ℕ} {s t : Caller}
    {ops : UInt64}
    (h : (metadataCalls async (fun _ => net) ctx heap mdSize rep fuel).run s = some (.ok ops, t)) :
    (UInt64.ofNat ctx.numHosts * UInt64.ofInt rep).toNat ≤ heap.vectorMax := by
  obtain ⟨_, t₁, -, h⟩ := of_run_bind_ok h
  obtain ⟨md, t₂, -, h⟩ := of_run_bind_ok h
  obtain ⟨_, t₃, hloop, -⟩ := of_run_bind_ok h
  obtain ⟨_, t₄, hreserve, -⟩ := of_run_bind_ok hloop
  by_contra hfull
  rw [Heap.reserve, if_neg hfull, run_throw] at hreserve
  exact absurd (Prod.mk.inj (Option.some.inj hreserve)).1 nofun

variable {mdSize ioSize rep : UInt64}

/-- **An `IoCalls` over some host that ends normally** has counted its repetitions with an `int`. -/
theorem rep_lt_of_ioCalls_ok {fuel : ℕ} {s t : Caller} {ops : UInt64} (hpos : 0 < ctx.numHosts)
    (h : (ioCalls lib async (fun _ => net) ctx heap mdSize ioSize rep fuel).run s
      = some (.ok ops, t)) :
    rep.toNat < 2 ^ 31 := by
  obtain ⟨_, t₁, -, h⟩ := of_run_bind_ok h
  obtain ⟨md, t₂, -, h⟩ := of_run_bind_ok h
  obtain ⟨_, t₃, hloop, -⟩ := of_run_bind_ok h
  obtain ⟨_, t₄, -, hloop⟩ := of_run_bind_ok hloop
  obtain ⟨_, t₅, hnodes, -⟩ := of_run_bind_ok hloop
  obtain ⟨t₆, hreps⟩ := of_forNodes_ok hpos hnodes
  obtain ⟨i, ⟨hi, hlt⟩, hexit⟩ := exists_int_of_forReps_ok hreps
  obtain ⟨k, rfl⟩ := Int.eq_ofNat_of_zero_le hi
  have hle : ¬ UInt64.ofInt (k : ℤ) < rep := of_decide_eq_false hexit
  rw [UInt64.lt_iff_toNat_lt, toNat_sizeOfInt (by omega)] at hle
  omega

/-- **A `MetadataCalls` that ends normally** has issued as many calls as the `int` main passed it.
-/
theorem issued_of_metadataCalls_ok {fuel : ℕ} {s : Caller} {ops : UInt64}
    (hn : ctx.numHosts < 2 ^ 31) (hstring : mdSize.toNat ≤ heap.stringMax)
    (hnet : ∀ nodeId ∈ nodeIds ctx.numHosts, net nodeId = .answers)
    (h : (metadataCalls async (fun _ => net) ctx heap mdSize (intOfSize rep) fuel).run {}
      = some (.ok ops, s)) :
    s.issued = repeatedCalls ctx.numHosts (intOfSize rep).toNat fun nodeId =>
      ⟨nodeId, "RpcPing", mdSize.toNat⟩ := by
  have hroom := room_of_metadataCalls_ok h
  have hlt : (intOfSize rep).toNat < 2 ^ 31 := by
    have := intOfSize_lt rep
    omega
  have hmore := metadataCalls_le
    (le_max_left fuel (max ctx.numHosts (intOfSize rep).toNat + 1)) _ _ h
  have hfuel : max ctx.numHosts (intOfSize rep).toNat
      < max fuel (max ctx.numHosts (intOfSize rep).toNat + 1) :=
    lt_of_lt_of_le (Nat.lt_succ_self _) (le_max_right _ _)
  rw [run_metadataCalls hn hstring hroom (Or.inr rfl) (Or.inr hlt) hfuel hnet] at hmore
  rw [← (Prod.mk.inj (Option.some.inj hmore)).2, issued_leftBehind]

/-- **`IoCalls` does the work it reports exactly below `2 ^ 31` repetitions** (or over no host):
from there on its `int` overflows. -/
theorem ioCalls_performs_iff (hlib : lib.OnWords) (hn : ctx.numHosts < 2 ^ 31)
    (hops : ctx.numHosts * rep.toNat < 2 ^ 64)
    (hbytes : ctx.numHosts * rep.toNat * (ioSize.toNat + mdSize.toNat) < 2 ^ 64)
    (hstring : mdSize.toNat ≤ heap.stringMax)
    (hvector : ctx.numHosts * rep.toNat ≤ heap.vectorMax)
    (hnet : ∀ nodeId ∈ nodeIds ctx.numHosts, net nodeId = .answers) :
    IoCallsPerforms lib async net ctx heap mdSize ioSize rep ↔
      ctx.numHosts = 0 ∨ rep.toNat < 2 ^ 31 := by
  constructor
  · rintro ⟨fuel, ops, s, hrun, -, -⟩
    rcases Nat.eq_zero_or_pos ctx.numHosts with hzero | hpos
    · exact Or.inl hzero
    · exact Or.inr (rep_lt_of_ioCalls_ok hpos hrun)
  · intro hrep
    have hroom : (UInt64.ofNat ctx.numHosts * rep).toNat ≤ heap.vectorMax := by
      rwa [toNat_numHosts_mul hn hops]
    refine ⟨_, _, _, run_ioCalls hlib hn hstring hroom hrep (Nat.lt_succ_self _) hnet,
      performed_leftBehind _ _ _, ?_⟩
    have hsum : ((repeatedCalls ctx.numHosts rep.toNat fun nodeId =>
        ⟨nodeId, "RpcTaskSubmit", mdSize.toNat + ioSize.toNat⟩).map IssuedCall.payload).sum
        = ctx.numHosts * rep.toNat * (mdSize.toNat + ioSize.toNat) :=
      sum_payload_repeatedCalls fun _ => rfl
    rw [issued_leftBehind, toNat_ops hn hops hbytes, hsum, Nat.add_comm ioSize.toNat]

/-- **`MetadataCalls` does the work it reports exactly below `2 ^ 31` repetitions** (or over no
host): from there on main passes it another number. -/
theorem metadataCalls_performs_iff (hn : ctx.numHosts < 2 ^ 31)
    (hops : ctx.numHosts * rep.toNat < 2 ^ 64)
    (hstring : mdSize.toNat ≤ heap.stringMax)
    (hvector : ctx.numHosts * rep.toNat ≤ heap.vectorMax)
    (hnet : ∀ nodeId ∈ nodeIds ctx.numHosts, net nodeId = .answers) :
    MetadataCallsPerforms async net ctx heap mdSize rep ↔
      ctx.numHosts = 0 ∨ rep.toNat < 2 ^ 31 := by
  constructor
  · rintro ⟨fuel, ops, s, hrun, ⟨hissued, -⟩, -⟩
    rcases Nat.eq_zero_or_pos ctx.numHosts with hzero | hpos
    · exact Or.inl hzero
    · have hcalls := (issued_of_metadataCalls_ok hn hstring hnet hrun).symm.trans hissued
      have hlengths := congrArg List.length hcalls
      rw [length_repeatedCalls, length_repeatedCalls] at hlengths
      have hreps : (intOfSize rep).toNat = rep.toNat := Nat.eq_of_mul_eq_mul_left hpos hlengths
      have hlt := intOfSize_lt rep
      right
      omega
  · intro hrep
    have hsize := toNat_numHosts_mul_int hn hops hrep
    have hcount : ctx.numHosts = 0 ∨ (intOfSize rep).toNat = rep.toNat :=
      hrep.imp_right fun hlt => by rw [intOfSize_eq hlt, Int.toNat_natCast]
    refine ⟨_, _, _, run_metadataCalls hn hstring (hsize ▸ hvector) hcount hrep
      (Nat.lt_succ_self _) hnet, performed_leftBehind _ _ _, hsize⟩

end Results

/-- **The benchmark performs the work it reports**: both tests, in both variants, under the sizes
of the configuration. -/
def BenchmarkPerforms (lib : HshmAny) (net : NodeId → CallOutcome) (ctx : RpcContext)
    (heap : Heap) (config : ServerConfig) : Prop :=
  ∀ async, IoCallsPerforms lib async net ctx heap config.mdSize config.ioSize config.rep ∧
    MetadataCallsPerforms async net ctx heap config.mdSize config.rep

/-- **When the benchmark performs the work it reports**: below `2 ^ 31` repetitions, or over no
host. -/
theorem benchmarkPerforms_iff {lib : HshmAny} (hlib : lib.OnWords) (net : NodeId → CallOutcome)
    (ctx : RpcContext) (heap : Heap) (config : ServerConfig) (hn : ctx.numHosts < 2 ^ 31)
    (hops : ctx.numHosts * config.rep.toNat < 2 ^ 64)
    (hbytes : ctx.numHosts * config.rep.toNat * (config.ioSize.toNat + config.mdSize.toNat)
      < 2 ^ 64)
    (hstring : config.mdSize.toNat ≤ heap.stringMax)
    (hvector : ctx.numHosts * config.rep.toNat ≤ heap.vectorMax)
    (hnet : ∀ nodeId : NodeId, 0 < nodeId.toNat → nodeId.toNat ≤ ctx.numHosts →
      net nodeId = .answers) :
    BenchmarkPerforms lib net ctx heap config ↔
      ctx.numHosts = 0 ∨ config.rep.toNat < 2 ^ 31 := by
  have hanswers : ∀ nodeId ∈ nodeIds ctx.numHosts, net nodeId = .answers := by
    intro m hm
    obtain ⟨hpos, hle⟩ := (mem_nodeIds (by omega)).mp hm
    exact hnet m hpos hle
  constructor
  · intro hperforms
    exact (ioCalls_performs_iff hlib hn hops hbytes hstring hvector hanswers).mp (hperforms true).1
  · intro hrep async
    exact ⟨(ioCalls_performs_iff hlib hn hops hbytes hstring hvector hanswers).mpr hrep,
      (metadataCalls_performs_iff hn hops hstring hvector hanswers).mpr hrep⟩

/-- A heap with room for everything below. -/
def roomyHeap : Heap := ⟨2 ^ 60, 2 ^ 60, fun _ => 4096, 0⟩

/-- The configuration of a run with `rep` repetitions. -/
def repeating (rep : UInt64) : ServerConfig :=
  { configOf ["10.0.0.1", "10.0.0.2"] "ofi+sockets" with ioSize := 4096, mdSize := 8, rep := rep }

theorem benchmarkPerforms_iff_repeating :
    BenchmarkPerforms wordFlags (fun _ => .answers) twoHosts roomyHeap (repeating 3) ↔
      twoHosts.numHosts = 0 ∨ (repeating 3).rep.toNat < 2 ^ 31 :=
  benchmarkPerforms_iff wordFlags_onWords (fun _ => .answers) twoHosts roomyHeap (repeating 3)
    (by decide) (by decide) (by decide) (by decide) (by decide) fun _ _ _ => rfl

/-- **With `rep = 4g` the metadata test issues no call and reports none.** -/
theorem not_benchmarkPerforms_fourGig :
    (metadataCalls true (fun _ _ => .answers) twoHosts roomyHeap 8
        (intOfSize (repeating 4294967296).rep) 3).run {} = some (.ok 0, {}) ∧
      ¬ BenchmarkPerforms wordFlags (fun _ => .answers) twoHosts roomyHeap
        (repeating 4294967296) := by
  refine ⟨by decide, fun hperforms => ?_⟩
  have hcond := (metadataCalls_performs_iff (by decide) (by decide) (by decide) (by decide)
    fun _ _ => rfl).mp (hperforms true).2
  exact absurd hcond (by decide)

end ChiNettest
