import ChiNettest.Rpc.Address

/-!
# Thallium/Caller — issuing an RPC and waiting for its response

A `Caller` is what the callers of `ThalliumRpc` leave behind: the calls issued through
`client_engine_`, the responses waited for, and the two locals every caller keeps (`responses`,
`count`).  An exception undoes neither, so a caller is a `Prog` over that state.

`CallOutcome` is what becomes of a call, which the parameter `net` tells by the number of the call
and its node.
`forNodes` is the node loop all callers share.  Its counter is a `u32` and its bound a `size_t`, so
it returns normally only below `2 ^ 32 - 1` nodes (`numHosts_lt_of_forNodes_ok`), and there it is
the traversal of `nodeIds` (`forNodes_eq_forEach`).
-/

namespace ChiNettest

open Prog

/-- What becomes of a call to a node. -/
inductive CallOutcome
  /-- issuing it raises `margo_exception` -/
  | issueRaises
  /-- it is issued, and waiting for its response raises `margo_exception` -/
  | waitRaises
  | answers
  deriving DecidableEq, Repr

/-- A call that was issued, with the bytes of data it carries. -/
structure IssuedCall where
  nodeId : NodeId
  funcName : String
  payload : ℕ
  deriving DecidableEq, Repr

/-- `thallium::async_response`: the position of the call among the issued ones, and its node. -/
structure AsyncResponse where
  id : ℕ
  nodeId : NodeId
  deriving DecidableEq, Repr

/-- What a caller has done, and its locals `responses` and `count`. -/
structure Caller where
  issued : List IssuedCall := []
  waited : List ℕ := []
  responses : List AsyncResponse := []
  count : ℕ := 0
  deriving DecidableEq, Repr

/-- A computation of a caller. -/
abbrev CallerProg (α : Type) : Type := Prog Exn Caller α

namespace Caller

/-- A call leaves. -/
def issue (s : Caller) (call : IssuedCall) : Caller := { s with issued := s.issued ++ [call] }

/-- A response is waited for. -/
def await (s : Caller) (id : ℕ) : Caller := { s with waited := s.waited ++ [id] }

/-- `responses.emplace_back(std::move(ret))` -/
def emplaceBack (s : Caller) (resp : AsyncResponse) : Caller :=
  { s with responses := s.responses ++ [resp] }

/-- A call leaves and its response is kept: the loop body of every asynchronous caller. -/
def post (s : Caller) (call : IssuedCall) : Caller :=
  (s.issue call).emplaceBack ⟨s.issued.length, call.nodeId⟩

/-- `++count` -/
def bump (s : Caller) : Caller := { s with count := s.count + 1 }

/-- The locals of a caller that has just been entered. -/
def enter (s : Caller) : Caller := { s with responses := [], count := 0 }

end Caller

/-! ## `ThalliumRpc::Call` -/

section Calls

variable (net : ℕ → NodeId → CallOutcome) (ctx : RpcContext)

/-- The part of `ThalliumRpc::Call` both variants share: the name of the server, then the call.
`client_engine_->lookup` failing is a call that raises when issued. -/
def issueCall (nodeId : NodeId) (funcName : String) (payload : ℕ) : CallerProg AsyncResponse := do
  let _serverName ← lift (ctx.getServerName nodeId)
  let s ← get
  if net s.issued.length nodeId = .issueRaises then throw .margo
  modify (·.issue ⟨nodeId, funcName, payload⟩)
  return ⟨s.issued.length, nodeId⟩

/-- `ThalliumRpc::AsyncCall`. -/
def asyncCall (nodeId : NodeId) (funcName : String) (payload : ℕ) : CallerProg AsyncResponse :=
  issueCall net ctx nodeId funcName payload

/-- `ThalliumRpc::SyncCall<int>`: the response is waited for inside the call. -/
def syncCall (nodeId : NodeId) (funcName : String) (payload : ℕ) : CallerProg Unit := do
  let resp ← issueCall net ctx nodeId funcName payload
  if net resp.id nodeId = .waitRaises then throw .margo

/-- `ThalliumRpc::Wait<int>`. -/
def wait (resp : AsyncResponse) : CallerProg Unit := do
  modify (·.await resp.id)
  if net resp.id resp.nodeId = .waitRaises then throw .margo

/-- `try { p } catch (tl::margo_exception &err) {}` -/
def catchMargo (p : CallerProg Unit) : CallerProg Unit :=
  tryCatch p fun e => if e = .margo then pure () else throw e

/-- **`for (NodeId node_id = 1; node_id <= NumHosts(); ++node_id)`** over `n` hosts. -/
def forNodes (n : ℕ) (body : NodeId → CallerProg Unit) (fuel : ℕ) : CallerProg Unit :=
  forLoop (fun nodeId => nodeId.toNat ≤ n) (fun nodeId => pure (nodeId + 1)) body fuel 1

end Calls

/-! ## One call -/

section One

variable {net : ℕ → NodeId → CallOutcome} {ctx : RpcContext} {nodeId : NodeId} {s : Caller}

/-- A node the range test accepts has a server name. -/
theorem exists_getServerName (hgood : ¬ BadNode ctx.hosts nodeId) :
    ∃ name, ctx.getServerName nodeId = .ok name := by
  obtain ⟨host, hentry, -⟩ := ctx.getHostField_eq HostInfo.ipAddr .runtimeError hgood
  exact ⟨_, RpcContext.getServerName_eq_render hgood hentry⟩

theorem run_issueCall_ok (hgood : ¬ BadNode ctx.hosts nodeId)
    (hnet : net s.issued.length nodeId ≠ .issueRaises)
    (funcName : String) (payload : ℕ) :
    (issueCall net ctx nodeId funcName payload).run s
      = some (.ok ⟨s.issued.length, nodeId⟩, s.issue ⟨nodeId, funcName, payload⟩) := by
  obtain ⟨name, hname⟩ := exists_getServerName hgood
  rw [issueCall, hname, run_bind_ok (run_lift _ s), run_bind_ok (run_get s), if_neg hnet]
  rfl

theorem run_issueCall_margo (hgood : ¬ BadNode ctx.hosts nodeId)
    (hnet : net s.issued.length nodeId = .issueRaises) (funcName : String) (payload : ℕ) :
    (issueCall net ctx nodeId funcName payload).run s = some (.error .margo, s) := by
  obtain ⟨name, hname⟩ := exists_getServerName hgood
  rw [issueCall, hname, run_bind_ok (run_lift _ s), run_bind_ok (run_get s), if_pos hnet]
  rfl

/-- A call to a node whose calls raise leaves nothing behind, in range or not. -/
theorem run_issueCall_raises (hnet : net s.issued.length nodeId = .issueRaises)
    (funcName : String) (payload : ℕ) :
    ∃ e, (issueCall net ctx nodeId funcName payload).run s = some (.error e, s) := by
  by_cases hbad : BadNode ctx.hosts nodeId
  · refine ⟨.runtimeError (ctx.badNodeText nodeId), ?_⟩
    have hname : ctx.getServerName nodeId = .error (.runtimeError (ctx.badNodeText nodeId)) := by
      simp [RpcContext.getServerName, RpcContext.getIpAddressFromNodeId, RpcContext.getHostField,
        hbad, bind, Except.bind]
    rw [issueCall, hname]
    rfl
  · exact ⟨.margo, run_issueCall_margo hbad hnet funcName payload⟩

/-- A synchronous call to a node that answers leaves the call behind, and waits on no response. -/
theorem run_syncCall_ok (hgood : ¬ BadNode ctx.hosts nodeId)
    (hnet : net s.issued.length nodeId = .answers) (funcName : String) (payload : ℕ) :
    (syncCall net ctx nodeId funcName payload).run s
      = some (.ok (), s.issue ⟨nodeId, funcName, payload⟩) := by
  have hissue : net s.issued.length nodeId ≠ .issueRaises := by simp [hnet]
  rw [syncCall, run_bind_ok (run_issueCall_ok hgood hissue funcName payload),
    if_neg (by simp [hnet]), run_pure]

/-- A synchronous call whose response raises has left all the same. -/
theorem run_syncCall_margo (hgood : ¬ BadNode ctx.hosts nodeId)
    (hnet : net s.issued.length nodeId = .waitRaises) (funcName : String) (payload : ℕ) :
    (syncCall net ctx nodeId funcName payload).run s
      = some (.error .margo, s.issue ⟨nodeId, funcName, payload⟩) := by
  have hissue : net s.issued.length nodeId ≠ .issueRaises := by simp [hnet]
  rw [syncCall, run_bind_ok (run_issueCall_ok hgood hissue funcName payload), if_pos hnet,
    run_throw]

/-- **A call waits for nothing and counts nothing**, whatever it ends with. -/
theorem issueCall_frame {r : Except Exn AsyncResponse} {t : Caller} {funcName : String}
    {payload : ℕ} (h : (issueCall net ctx nodeId funcName payload).run s = some (r, t)) :
    t.waited = s.waited ∧ t.responses = s.responses ∧ t.count = s.count := by
  rcases hname : ctx.getServerName nodeId with e | name
  · rw [issueCall, hname, run_bind_error (run_lift _ s)] at h
    obtain ⟨-, rfl⟩ := Prod.mk.inj (Option.some.inj h)
    exact ⟨rfl, rfl, rfl⟩
  · rw [issueCall, hname, run_bind_ok (run_lift _ s), run_bind_ok (run_get s)] at h
    by_cases hnet : net s.issued.length nodeId = .issueRaises
    · rw [if_pos hnet, run_bind_error (run_throw _ s)] at h
      obtain ⟨-, rfl⟩ := Prod.mk.inj (Option.some.inj h)
      exact ⟨rfl, rfl, rfl⟩
    · rw [if_neg hnet] at h
      obtain ⟨-, rfl⟩ := Prod.mk.inj (Option.some.inj h)
      exact ⟨rfl, rfl, rfl⟩

theorem run_wait_ok {resp : AsyncResponse} (hnet : net resp.id resp.nodeId ≠ .waitRaises) :
    (wait net resp).run s = some (.ok (), s.await resp.id) := by
  rw [wait, run_bind_ok (run_modify _ s), if_neg hnet, run_pure]

theorem run_wait_margo {resp : AsyncResponse} (hnet : net resp.id resp.nodeId = .waitRaises) :
    (wait net resp).run s = some (.error .margo, s.await resp.id) := by
  rw [wait, run_bind_ok (run_modify _ s), if_pos hnet, run_throw]

theorem run_catchMargo_ok {p : CallerProg Unit} {t : Caller}
    (h : p.run s = some (.ok (), t)) : (catchMargo p).run s = some (.ok (), t) :=
  run_tryCatch_ok h

theorem run_catchMargo_margo {p : CallerProg Unit} {t : Caller}
    (h : p.run s = some (.error .margo, t)) : (catchMargo p).run s = some (.ok (), t) := by
  rw [catchMargo, run_tryCatch_error h, if_pos rfl, run_pure]

/-- A handler sees only how its block ends. -/
theorem run_catchMargo_congr {p q : CallerProg Unit} {t : Caller} (h : p.run s = q.run t) :
    (catchMargo p).run s = (catchMargo q).run t :=
  congrArg (Option.bind · (orCatch _)) h

end One

/-! ## The node loop -/

/-- The node ids `1, …, n`. -/
def nodeIds (n : ℕ) : List NodeId := (List.range' 1 n).map UInt32.ofNat

@[simp] theorem length_nodeIds (n : ℕ) : (nodeIds n).length = n := by simp [nodeIds]

theorem getElem_nodeIds {n i : ℕ} (h : i < (nodeIds n).length) :
    (nodeIds n)[i] = UInt32.ofNat (i + 1) := by
  simp [nodeIds, Nat.add_comm]

theorem mem_nodeIds {n : ℕ} (hn : n < 2 ^ 32) {nodeId : NodeId} :
    nodeId ∈ nodeIds n ↔ 0 < nodeId.toNat ∧ nodeId.toNat ≤ n := by
  simp only [nodeIds, List.mem_map, List.mem_range'_1]
  constructor
  · rintro ⟨k, ⟨hk, hkn⟩, rfl⟩
    rw [UInt32.toNat_ofNat_of_lt' (show k < 2 ^ 32 by omega)]
    omega
  · rintro ⟨hpos, hle⟩
    exact ⟨nodeId.toNat, ⟨hpos, by omega⟩, UInt32.ofNat_toNat⟩

/-- What holds of every two ids of a table in order is a property of its pairs. -/
theorem pairwise_nodeIds_iff {n : ℕ} (hn : n < 2 ^ 32) {R : NodeId → NodeId → Prop} :
    (nodeIds n).Pairwise R ↔
      ∀ i j : NodeId, 0 < i.toNat → i < j → j.toNat ≤ n → R i j := by
  rw [List.pairwise_iff_getElem]
  constructor
  · intro h i j hpos hlt hle
    have hij : i.toNat < j.toNat := UInt32.lt_iff_toNat_lt.mp hlt
    have hpair := h (i.toNat - 1) (j.toNat - 1) (by simp; omega) (by simp; omega) (by omega)
    rw [getElem_nodeIds, getElem_nodeIds, Nat.sub_add_cancel hpos,
      Nat.sub_add_cancel (by omega : 1 ≤ j.toNat), UInt32.ofNat_toNat, UInt32.ofNat_toNat] at hpair
    exact hpair
  · intro h a b ha hb hab
    rw [length_nodeIds] at ha hb
    have ha' := UInt32.toNat_ofNat_of_lt' (show a + 1 < 2 ^ 32 by omega)
    have hb' := UInt32.toNat_ofNat_of_lt' (show b + 1 < 2 ^ 32 by omega)
    rw [getElem_nodeIds, getElem_nodeIds]
    exact h _ _ (by omega) (UInt32.lt_iff_toNat_lt.mpr (by omega)) (by omega)

/-- The ids of a table are increasing. -/
theorem pairwise_nodeIds {n : ℕ} (hn : n < 2 ^ 32) : (nodeIds n).Pairwise (· < ·) :=
  (pairwise_nodeIds_iff hn).mpr fun _ _ _ hlt _ => hlt

/-- A node of a table that fits the `u32` passes the range test. -/
theorem not_badNode_of_mem_nodeIds {ctx : RpcContext} (hn : ctx.numHosts < 2 ^ 32)
    {nodeId : NodeId} (h : nodeId ∈ nodeIds ctx.numHosts) : ¬ BadNode ctx.hosts nodeId := by
  have hmod : ctx.hosts.length % 2 ^ 32 = ctx.numHosts := Nat.mod_eq_of_lt hn
  rw [not_badNode_iff, hmod]
  exact (mem_nodeIds hn).mp h

/-- The counter of the node loop, from `k` on. -/
theorem counts_nodes {n : ℕ} (hn : n < 2 ^ 32 - 1) :
    ∀ {k m : ℕ}, k + m = n + 1 →
      Counts (ε := Exn) (σ := Caller) (fun nodeId => decide (nodeId.toNat ≤ n))
        (fun nodeId => pure (nodeId + 1)) (UInt32.ofNat k)
        ((List.range' k m).map UInt32.ofNat)
  | k, 0, hkm => .stop (by
      rw [UInt32.toNat_ofNat_of_lt' (show k < 2 ^ 32 by omega)]
      exact decide_eq_false (by omega))
  | k, m + 1, hkm => by
      have hsucc : UInt32.ofNat k + 1 = UInt32.ofNat (k + 1) := (UInt32.ofNat_add k 1).symm
      refine .step ?_ rfl (hsucc ▸ counts_nodes hn (by omega))
      rw [UInt32.toNat_ofNat_of_lt' (show k < 2 ^ 32 by omega)]
      exact decide_eq_true (by omega)

/-- **Below `2 ^ 32 - 1` hosts the node loop visits `1, …, n`.** -/
theorem forNodes_eq_forEach {n fuel : ℕ} (hn : n < 2 ^ 32 - 1) (hfuel : n < fuel)
    (body : NodeId → CallerProg Unit) : forNodes n body fuel = forEach (nodeIds n) body :=
  forLoop_eq_forEach (counts_nodes hn (k := 1) (m := n) (Nat.add_comm 1 n)) (by simpa using hfuel)

/-- **The node loop returns normally only below `2 ^ 32 - 1` hosts** — its `u32` counter never
exceeds a larger bound. -/
theorem numHosts_lt_of_forNodes_ok {n fuel : ℕ} {body : NodeId → CallerProg Unit} {s t : Caller}
    (h : (forNodes n body fuel).run s = some (.ok (), t)) : n < 2 ^ 32 - 1 := by
  obtain ⟨nodeId, -, hexit⟩ :=
    exists_exit_of_forLoop_ok (I := fun _ => True) (fun _ _ _ _ _ _ _ => trivial) fuel 1 s t
      trivial h
  have hgt : ¬ nodeId.toNat ≤ n := of_decide_eq_false hexit
  have hlt := nodeId.toNat_lt
  omega

/-- The node loop with more fuel ends wherever it ended. -/
theorem forNodes_le {n fuel fuel' : ℕ} {body body' : NodeId → CallerProg Unit}
    (hbody : ∀ nodeId, Le (body nodeId) (body' nodeId)) (hle : fuel ≤ fuel') :
    Le (forNodes n body fuel) (forNodes n body' fuel') :=
  Le.forLoop hbody hle 1

/-! ## Posting a sequence of calls, and waiting for their responses -/

/-- The responses of calls issued from position `k` on. -/
def responsesOf (k : ℕ) (calls : List IssuedCall) : List AsyncResponse :=
  (calls.zipIdx k).map fun c => ⟨c.2, c.1.nodeId⟩

@[simp] theorem map_id_responsesOf (k : ℕ) (calls : List IssuedCall) :
    (responsesOf k calls).map AsyncResponse.id = List.range' k calls.length := by
  rw [responsesOf, List.map_map, ← List.zipIdx_map_snd k calls]
  rfl

@[simp] theorem map_nodeId_responsesOf (k : ℕ) (calls : List IssuedCall) :
    (responsesOf k calls).map AsyncResponse.nodeId = calls.map IssuedCall.nodeId := by
  have hfst : ((calls.zipIdx k).map Prod.fst).map IssuedCall.nodeId
      = calls.map IssuedCall.nodeId := by rw [List.zipIdx_map_fst]
  rw [responsesOf, List.map_map, ← hfst, List.map_map]
  rfl

theorem foldl_post : ∀ (calls : List IssuedCall) (s : Caller),
    calls.foldl Caller.post s =
      { s with
        issued := s.issued ++ calls
        responses := s.responses ++ responsesOf s.issued.length calls }
  | [], s => by simp [responsesOf]
  | call :: calls, s => by
      rw [List.foldl_cons, foldl_post calls]
      simp [Caller.post, Caller.issue, Caller.emplaceBack, responsesOf]

theorem foldl_await : ∀ (resps : List AsyncResponse) (s : Caller),
    resps.foldl (fun t resp => t.await resp.id) s
      = { s with waited := s.waited ++ resps.map AsyncResponse.id }
  | [], s => by simp
  | resp :: resps, s => by
      rw [List.foldl_cons, foldl_await resps]
      simp [Caller.await]

section Sequence

variable {net : ℕ → NodeId → CallOutcome} {ctx : RpcContext}

/-- The body of an asynchronous caller's loop: `auto ret = AsyncCall(…)`, then
`responses.emplace_back(std::move(ret))`. -/
def postCall (net : ℕ → NodeId → CallOutcome) (ctx : RpcContext) (funcName : String) (payload : ℕ)
    (nodeId : NodeId) : CallerProg Unit := do
  let ret ← asyncCall net ctx nodeId funcName payload
  modify (·.emplaceBack ret)

theorem run_postCall_ok {nodeId : NodeId} {s : Caller} (hgood : ¬ BadNode ctx.hosts nodeId)
    (hnet : net s.issued.length nodeId ≠ .issueRaises) (funcName : String) (payload : ℕ) :
    (postCall net ctx funcName payload nodeId).run s
      = some (.ok (), s.post ⟨nodeId, funcName, payload⟩) := by
  rw [postCall, asyncCall, run_bind_ok (run_issueCall_ok hgood hnet funcName payload), run_modify]
  rfl

theorem run_postCall_margo {nodeId : NodeId} {s : Caller} (hgood : ¬ BadNode ctx.hosts nodeId)
    (hnet : net s.issued.length nodeId = .issueRaises) (funcName : String) (payload : ℕ) :
    (postCall net ctx funcName payload nodeId).run s = some (.error .margo, s) := by
  rw [postCall, asyncCall, run_bind_error (run_issueCall_margo hgood hnet funcName payload)]

/-- A posted call waits for nothing, whatever it ends with. -/
theorem postCall_waited {nodeId : NodeId} {funcName : String} {payload : ℕ} {s t : Caller}
    {r : Except Exn Unit} (h : (postCall net ctx funcName payload nodeId).run s = some (r, t)) :
    t.waited = s.waited := by
  rw [postCall, asyncCall, run_bind, Option.bind_eq_some_iff] at h
  obtain ⟨⟨e | resp, t₁⟩, hcall, h⟩ := h
  · obtain ⟨-, rfl⟩ : .error e = r ∧ t₁ = t := by simpa [andThen] using h
    exact (issueCall_frame hcall).1
  · have hmod : t = t₁.emplaceBack resp :=
      (Prod.mk.inj (Option.some.inj (show some (.ok (), t₁.emplaceBack resp) = some (r, t) from
        h))).2.symm
    rw [hmod]
    exact (issueCall_frame hcall).1

end Sequence

end ChiNettest
