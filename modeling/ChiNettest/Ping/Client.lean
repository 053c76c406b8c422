import ChiNettest.Bench.PingAll
import ChiNettest.Ping.Processes
import ChiNettest.Thallium.StopAllDaemons

/-!
# Ping/Client — `main` of `chi_net_ping`, and the steps the port has it take

The steps of `Ping/Processes` are the calls of `main`; what a call does when it returns has a guard.
Here are `main` itself, with its `try` blocks, and the two loops a client runs in them.

`pingAll` ends the process at the first node that does not answer, in either variant; so it returns
exactly if every node answers, which is the guard of its step, and so does `StopAllDaemons`
(`clientLoops_return_iff`).  `main` makes the calls of `mainCalls` up to the first that does not
return, and how that one ends decides its exit status (`run_main`).
-/

namespace ChiNettest

/-- What `catch (...)` takes: an exception, not the end of the process or undefined behaviour. -/
def Exn.isException : Exn → Bool
  | margo | runtimeError _ | lengthError => true
  | fatal _ | nullAccess | outOfRange | signedOverflow => false

/-- The process is ended by `HELOG(kFatal)`. -/
def Exn.IsFatal (e : Exn) : Prop := ∃ msg, e = .fatal msg

namespace Ping

open Prog

/-! ## `PingAll` -/

section PingAll

variable (async : Bool) (net : ℕ → NodeId → CallOutcome) (ctx : RpcContext)

/-- The handlers around a ping: both end the process. -/
def orFatal (nodeId : NodeId) (e : Exn) : CallerProg Unit :=
  if e = .margo then throw (.fatal ("Failed to ping node " ++ toString nodeId.toNat))
  else if e.isException then throw (.fatal "Failed to ping node")
  else throw e

/-- The body of the node loop of `PingAll`. -/
def pingNode (nodeId : NodeId) : CallerProg Unit :=
  tryCatch
    (if async then postCall net ctx "RpcPing" 0 nodeId
    else do
      syncCall net ctx nodeId "RpcPing" 0
      modify Caller.bump)
    (orFatal nodeId)

/-- The handler around the wait loop. -/
def waitsOrFatal (e : Exn) : CallerProg Unit :=
  if e = .margo then throw (.fatal "Failed to ping node") else throw e

/-- `TestRunner::PingAll<ASYNC>` of `chi_net_ping`. -/
def pingAll (fuel : ℕ) : CallerProg Unit := do
  modify Caller.enter
  forNodes ctx.numHosts (pingNode async net ctx) fuel
  if async then
    let s ← get
    tryCatch (forEach s.responses (waitCount net)) waitsOrFatal

end PingAll

section Ends

variable {net : NodeId → CallOutcome} {ctx : RpcContext} {nodeId : NodeId}

/-- A call that raises ends the process. -/
theorem raises_orFatal {p : CallerProg Unit} (hp : Raises (· = Exn.margo) p) :
    Raises Exn.IsFatal (tryCatch p (orFatal nodeId)) :=
  hp.tryCatch fun e he => by
    rw [he, orFatal, if_pos rfl]
    exact fun s => ⟨_, s, rfl, _, rfl⟩

theorem raises_postCall (hgood : ¬ BadNode ctx.hosts nodeId) (hnet : net nodeId = .issueRaises)
    (funcName : String) :
    Raises (· = Exn.margo) (postCall (fun _ => net) ctx funcName 0 nodeId) := fun s =>
  ⟨.margo, s, run_postCall_margo hgood hnet funcName 0, rfl⟩

theorem returns_syncCall (hgood : ¬ BadNode ctx.hosts nodeId) (hnet : net nodeId = .answers)
    (funcName : String) : Returns (syncCall (fun _ => net) ctx nodeId funcName 0) := fun s =>
  ⟨(), _, run_syncCall_ok (s := s) hgood hnet funcName 0⟩

theorem raises_syncCall (hgood : ¬ BadNode ctx.hosts nodeId) (hnet : net nodeId ≠ .answers)
    (funcName : String) :
    Raises (· = Exn.margo) (syncCall (fun _ => net) ctx nodeId funcName 0) := fun s => by
  cases hcall : net nodeId with
  | issueRaises =>
    exact ⟨.margo, s, run_bind_error (run_issueCall_margo hgood hcall funcName 0), rfl⟩
  | waitRaises => exact ⟨.margo, _, run_syncCall_margo hgood hcall funcName 0, rfl⟩
  | answers => exact absurd hcall hnet

theorem returns_wait {resp : AsyncResponse} (hnet : net resp.nodeId ≠ .waitRaises) :
    Returns (wait (fun _ => net) resp) := fun _ => ⟨(), _, run_wait_ok hnet⟩

theorem raises_wait {resp : AsyncResponse} (hnet : net resp.nodeId = .waitRaises) :
    Raises (· = Exn.margo) (wait (fun _ => net) resp) := fun _ =>
  ⟨.margo, _, run_wait_margo hnet, rfl⟩

/-- **A synchronous ping returns exactly if the node answers**, and ends the process otherwise. -/
theorem pingNode_sync (hgood : ¬ BadNode ctx.hosts nodeId) :
    (net nodeId = .answers → Returns (pingNode false (fun _ => net) ctx nodeId)) ∧
      (net nodeId ≠ .answers → Raises Exn.IsFatal (pingNode false (fun _ => net) ctx nodeId)) := by
  rw [pingNode, if_neg Bool.false_ne_true]
  refine ⟨fun hnet => ?_, fun hnet => ?_⟩
  · exact ((returns_syncCall hgood hnet "RpcPing").bind fun _ =>
      returns_modify Caller.bump).tryCatch
  · exact raises_orFatal (raises_syncCall hgood hnet "RpcPing").bind

/-- **An asynchronous ping returns exactly if the call leaves.** -/
theorem pingNode_async (hgood : ¬ BadNode ctx.hosts nodeId) :
    (net nodeId ≠ .issueRaises → ∀ s : Caller, (pingNode true (fun _ => net) ctx nodeId).run s
      = some (.ok (), s.post ⟨nodeId, "RpcPing", 0⟩)) ∧
    (net nodeId = .issueRaises → Raises Exn.IsFatal (pingNode true (fun _ => net) ctx nodeId)) := by
  rw [pingNode, if_pos rfl]
  exact ⟨fun hnet s => run_tryCatch_ok (run_postCall_ok hgood hnet "RpcPing" 0),
    fun hnet => raises_orFatal (raises_postCall hgood hnet "RpcPing")⟩

/-- **A computation returns exactly if `P`**, and ends in an exception of `F` otherwise. -/
structure EndsAs {σ : Type} (P : Prop) (F : Exn → Prop) (res : Option (Except Exn Unit × σ)) :
    Prop where
  returns : P → ∃ t, res = some (.ok (), t)
  raises : ¬ P → ∃ e t, res = some (.error e, t) ∧ F e

theorem EndsAs.returns_iff {σ : Type} {P : Prop} {F : Exn → Prop}
    {res : Option (Except Exn Unit × σ)} (h : EndsAs P F res) :
    (∃ t, res = some (.ok (), t)) ↔ P := by
  refine ⟨fun ⟨t, ht⟩ => ?_, h.returns⟩
  by_contra hP
  obtain ⟨e, t', ht', -⟩ := h.raises hP
  cases ht.symm.trans ht'

theorem EndsAs.congr {σ : Type} {P Q : Prop} {F : Exn → Prop}
    {res : Option (Except Exn Unit × σ)} (h : EndsAs P F res) (hPQ : P ↔ Q) : EndsAs Q F res where
  returns hQ := h.returns (hPQ.mpr hQ)
  raises hQ := h.raises fun hP => hQ (hPQ.mp hP)

/-- **A loop that posts a call to every node.** -/
structure Posts (net : NodeId → CallOutcome) (F : Exn → Prop) (funcName : String)
    (ids : List NodeId) (post : NodeId → CallerProg Unit) : Prop where
  leaves : ∀ m ∈ ids, net m ≠ .issueRaises → ∀ t : Caller,
    (post m).run t = some (.ok (), t.post ⟨m, funcName, 0⟩)
  raises : ∀ m ∈ ids, net m = .issueRaises → Raises F (post m)

/-- **Waits for responses.** -/
structure Awaits (net : NodeId → CallOutcome) (F : Exn → Prop) (resps : List AsyncResponse)
    (p : CallerProg Unit) : Prop where
  returns : (∀ resp ∈ resps, net resp.nodeId ≠ .waitRaises) → Returns p
  raises : (∃ resp ∈ resps, net resp.nodeId = .waitRaises) → Raises F p

section AsyncLoop

variable {F : Exn → Prop} {funcName : String} {ids : List NodeId} {post : NodeId → CallerProg Unit}

/-- The responses to one call to each node, from number `k` on. -/
def responsesFrom (k : ℕ) (funcName : String) (ids : List NodeId) : List AsyncResponse :=
  responsesOf k (ids.map fun m => ⟨m, funcName, 0⟩)

theorem map_nodeId_responsesFrom (k : ℕ) (funcName : String) (ids : List NodeId) :
    (responsesFrom k funcName ids).map AsyncResponse.nodeId = ids := by
  rw [responsesFrom, map_nodeId_responsesOf, List.map_map]
  exact List.map_id ids

/-- A posting loop with a node the call does not leave for. -/
theorem Posts.loop_raises (hpost : Posts net F funcName ids post)
    (hissue : ∃ m ∈ ids, net m = .issueRaises) : Raises F (forEach ids post) := by
  obtain ⟨c, hc, hcall⟩ := hissue
  refine raises_forEach (fun m hm => ?_) ⟨c, hc, hpost.raises c hc hcall⟩
  by_cases hnet : net m = .issueRaises
  · exact .inr (hpost.raises m hm hnet)
  · exact .inl fun t => ⟨(), _, hpost.leaves m hm hnet t⟩

/-- A posting loop whose calls all leave. -/
theorem Posts.run_loop (hpost : Posts net F funcName ids post)
    (hleaves : ∀ m ∈ ids, net m ≠ .issueRaises) {s : Caller} (hs : s.responses = []) :
    (forEach ids post).run s = some (.ok (), { s with
      issued := s.issued ++ ids.map fun m => ⟨m, funcName, 0⟩
      responses := responsesFrom s.issued.length funcName ids }) := by
  rw [run_forEach_ok ids s fun m hm t => hpost.leaves m hm (hleaves m hm) t,
    ← List.foldl_map (g := Caller.post), foldl_post, hs]
  rfl

/-- Every node a call leaves for answers exactly if no response to these calls raises. -/
theorem forall_answers_iff (hleaves : ∀ m ∈ ids, net m ≠ .issueRaises) (k : ℕ) :
    (∀ m ∈ ids, net m = .answers) ↔
      ∀ resp ∈ responsesFrom k funcName ids, net resp.nodeId ≠ .waitRaises := by
  have hids : (∀ resp ∈ responsesFrom k funcName ids, net resp.nodeId ≠ .waitRaises) ↔
      ∀ m ∈ ids, net m ≠ .waitRaises := by
    conv_rhs => rw [← map_nodeId_responsesFrom k funcName ids]
    rw [List.forall_mem_map]
  rw [hids]
  refine forall₂_congr fun m hm => ?_
  cases hcall : net m with
  | issueRaises => exact absurd hcall (hleaves m hm)
  | waitRaises => simp
  | answers => simp

/-- **A loop that posts calls, then waits for their responses**: both return exactly if every node
answers. -/
theorem endsAs_asyncLoop (hpost : Posts net F funcName ids post)
    {waits : List AsyncResponse → CallerProg Unit}
    (hwaits : ∀ resps, Awaits net F resps (waits resps)) {s : Caller} (hs : s.responses = []) :
    EndsAs (∀ m ∈ ids, net m = .answers) F
      ((forEach ids post >>= fun _ => get >>= fun t => waits t.responses).run s) := by
  by_cases hissue : ∃ m ∈ ids, net m = .issueRaises
  · have hraises := (hpost.loop_raises hissue).bind (f := fun _ => get >>= fun t =>
      waits t.responses) s
    obtain ⟨m, hm, hnet⟩ := hissue
    exact ⟨fun hall => absurd ((hall m hm).symm.trans hnet) (by simp), fun _ => hraises⟩
  · have hleaves : ∀ m ∈ ids, net m ≠ .issueRaises := fun m hm hnet => hissue ⟨m, hm, hnet⟩
    have hends := hwaits (responsesFrom s.issued.length funcName ids)
    rw [run_bind_ok (hpost.run_loop hleaves hs), forall_answers_iff hleaves s.issued.length]
    refine ⟨fun hall => ?_, fun hnot => hends.raises ?_ _⟩
    · obtain ⟨_, t, ht⟩ := hends.returns hall { s with
        issued := s.issued ++ ids.map fun m => ⟨m, funcName, 0⟩
        responses := responsesFrom s.issued.length funcName ids }
      exact ⟨t, ht⟩
    · simpa only [not_forall, not_not, exists_prop] using hnot

end AsyncLoop

/-- A loop of waits. -/
theorem awaits_forEach {one : AsyncResponse → CallerProg Unit}
    (hone : ∀ resp, (net resp.nodeId ≠ .waitRaises → Returns (one resp)) ∧
      (net resp.nodeId = .waitRaises → Raises (· = Exn.margo) (one resp)))
    (resps : List AsyncResponse) : Awaits net (· = Exn.margo) resps (forEach resps one) := by
  refine ⟨fun hall => returns_forEach fun resp hresp => (hone resp).1 (hall resp hresp),
    fun ⟨resp, hresp, hnet⟩ => raises_forEach (fun other _ => ?_) ⟨resp, hresp, (hone resp).2 hnet⟩⟩
  by_cases hother : net other.nodeId = .waitRaises
  · exact .inr ((hone other).2 hother)
  · exact .inl ((hone other).1 hother)

/-- The wait loop of `PingAll` ends the process at a response that raises. -/
theorem awaits_waitsOrFatal (resps : List AsyncResponse) : Awaits net Exn.IsFatal resps
    (tryCatch (forEach resps (waitCount (fun _ => net))) waitsOrFatal) := by
  have hone : ∀ resp, (net resp.nodeId ≠ .waitRaises → Returns (waitCount (fun _ => net) resp)) ∧
      (net resp.nodeId = .waitRaises → Raises (· = Exn.margo) (waitCount (fun _ => net) resp)) :=
    fun resp => ⟨fun hnet => (returns_wait hnet).bind fun _ => returns_modify Caller.bump,
      fun hnet => (raises_wait hnet).bind⟩
  obtain ⟨hreturns, hraises⟩ := awaits_forEach hone resps
  refine ⟨fun hall => (hreturns hall).tryCatch, fun hex => (hraises hex).tryCatch fun e he => ?_⟩
  rw [he, waitsOrFatal, if_pos rfl]
  exact fun t => ⟨_, t, rfl, _, rfl⟩

/-- The node loop of the synchronous `PingAll`. -/
theorem endsAs_syncLoop {ids : List NodeId} (hgood : ∀ m ∈ ids, ¬ BadNode ctx.hosts m)
    (s : Caller) : EndsAs (∀ m ∈ ids, net m = .answers) Exn.IsFatal
      ((forEach ids (pingNode false (fun _ => net) ctx)).run s) := by
  refine ⟨fun hall => ?_, fun hnot => ?_⟩
  · have hloop : Returns (forEach ids (pingNode false (fun _ => net) ctx)) :=
      returns_forEach fun m hm => (pingNode_sync (hgood m hm)).1 (hall m hm)
    obtain ⟨_, t, ht⟩ := hloop s
    exact ⟨t, ht⟩
  · simp only [not_forall] at hnot
    obtain ⟨c, hc, hnet⟩ := hnot
    refine raises_forEach (fun m hm => ?_) ⟨c, hc, (pingNode_sync (hgood c hc)).2 hnet⟩ s
    by_cases hm' : net m = .answers
    · exact .inl ((pingNode_sync (hgood m hm)).1 hm')
    · exact .inr ((pingNode_sync (hgood m hm)).2 hm')

/-- **`PingAll` returns exactly if every node answers**, in both variants, and ends the process
otherwise. -/
theorem endsAs_pingAll (async : Bool) {fuel : ℕ} (hn : ctx.numHosts < 2 ^ 32 - 1)
    (hfuel : ctx.numHosts < fuel) (s : Caller) :
    EndsAs (∀ m ∈ nodeIds ctx.numHosts, net m = .answers) Exn.IsFatal
      ((pingAll async (fun _ => net) ctx fuel).run s) := by
  have hgood : ∀ m ∈ nodeIds ctx.numHosts, ¬ BadNode ctx.hosts m := fun m hm =>
    not_badNode_of_mem_nodeIds (by omega) hm
  rw [pingAll, run_bind_ok (run_modify _ s), forNodes_eq_forEach hn hfuel]
  cases async with
  | true =>
    have hpost : Posts net Exn.IsFatal "RpcPing" (nodeIds ctx.numHosts)
        (pingNode true (fun _ => net) ctx) :=
      ⟨fun m hm => (pingNode_async (hgood m hm)).1, fun m hm => (pingNode_async (hgood m hm)).2⟩
    exact endsAs_asyncLoop hpost awaits_waitsOrFatal rfl
  | false =>
    simp only [Bool.false_eq_true, if_false, bind_skip]
    exact endsAs_syncLoop hgood s.enter

/-- **`StopAllDaemons` returns exactly if every node answers.** -/
theorem endsAs_stopAllDaemons {fuel : ℕ} (hn : ctx.numHosts < 2 ^ 32 - 1)
    (hfuel : ctx.numHosts < fuel) (s : Caller) :
    EndsAs (∀ m ∈ nodeIds ctx.numHosts, net m = .answers) (· = Exn.margo)
      ((stopAllDaemons (fun _ => net) ctx 1 fuel).run s) := by
  have hgood : ∀ m ∈ nodeIds ctx.numHosts, ¬ BadNode ctx.hosts m := fun m hm =>
    not_badNode_of_mem_nodeIds (by omega) hm
  rw [stopAllDaemons, run_bind_ok (run_modify _ s), forNodes_eq_forEach hn hfuel]
  have hpost : Posts net (· = Exn.margo) "RpcStopDaemon" (nodeIds ctx.numHosts)
      (postCall (fun _ => net) ctx "RpcStopDaemon" 0) :=
    ⟨fun m hm hnet _ => run_postCall_ok (hgood m hm) hnet "RpcStopDaemon" 0,
      fun m hm hnet => raises_postCall (hgood m hm) hnet "RpcStopDaemon"⟩
  exact endsAs_asyncLoop hpost (awaits_forEach fun resp => ⟨returns_wait, raises_wait⟩) rfl

end Ends

/-! ## The guards of the port -/

section Guards

variable {Host : Type*} [DecidableEq Host] {s : Port Host} {p : Process Host}
  {net net' : NodeId → CallOutcome} {ctx : RpcContext}

/-- Node `i` of a client is host `i` of its process, and answers exactly if the host is `up`. -/
def AnswersAs (hosts : List Host) (up : Host → Prop) (net : NodeId → CallOutcome) : Prop :=
  ∀ (i : ℕ) (host : Host), hosts[i]? = some host →
    (net (UInt32.ofNat (i + 1)) = .answers ↔ up host)

omit [DecidableEq Host] in
theorem AnswersAs.all_iff {hosts : List Host} {up : Host → Prop} (h : AnswersAs hosts up net) :
    (∀ m ∈ nodeIds hosts.length, net m = .answers) ↔ ∀ host ∈ hosts, up host := by
  constructor
  · intro hall host hhost
    obtain ⟨i, hi⟩ := List.mem_iff_getElem?.mp hhost
    have hlt : i < hosts.length := (List.getElem?_eq_some_iff.mp hi).1
    have hmem : UInt32.ofNat (i + 1) ∈ nodeIds hosts.length :=
      List.mem_map_of_mem (List.mem_range'_1.mpr ⟨by omega, by omega⟩)
    exact (h i host hi).mp (hall _ hmem)
  · intro hall m hm
    obtain ⟨k, hk, rfl⟩ := List.mem_map.mp hm
    obtain ⟨hpos, hlt⟩ := List.mem_range'_1.mp hk
    obtain ⟨i, rfl⟩ := Nat.exists_eq_succ_of_ne_zero (Nat.pos_iff_ne_zero.mp hpos)
    have hi : i < hosts.length := by omega
    exact (h i _ (List.getElem?_eq_getElem hi)).mpr (hall _ (List.getElem_mem hi))

end Guards

/-- **The two loops of a client end as their steps do.**  Where the nodes of its table are the hosts
of its process, `PingAll`, in either variant, returns exactly if the port lets the step `pingAll`
return, and ends the process otherwise; `StopAllDaemons` returns exactly if the port lets
`stopAllDaemons`, and raises `margo_exception` otherwise. -/
theorem clientLoops_return_iff {Host : Type*} [DecidableEq Host] {s : Port Host} {p : Process Host}
    {net net' : NodeId → CallOutcome} {ctx : RpcContext} (hhosts : ctx.numHosts = p.hosts.length)
    (hn : ctx.numHosts < 2 ^ 32 - 1) {fuel : ℕ} (hfuel : ctx.numHosts < fuel)
    (hready : AnswersAs p.hosts s.ReadyOn net) (hlisten : AnswersAs p.hosts s.Listening net')
    (async : Bool) (caller : Caller) :
    (((∃ t, (pingAll async (fun _ => net) ctx fuel).run caller = some (.ok (), t)) ↔
        (MainCall.pingAll.returns s p).isSome) ∧
      (MainCall.pingAll.returns s p = none → ∃ e t,
        (pingAll async (fun _ => net) ctx fuel).run caller = some (.error e, t) ∧ e.IsFatal)) ∧
    (((∃ t, (stopAllDaemons (fun _ => net') ctx 1 fuel).run caller = some (.ok (), t)) ↔
        (MainCall.stopAllDaemons.returns s p).isSome) ∧
      (MainCall.stopAllDaemons.returns s p = none → ∃ t,
        (stopAllDaemons (fun _ => net') ctx 1 fuel).run caller = some (.error .margo, t))) := by
  have hping : EndsAs (MainCall.pingAll.returns s p).isSome Exn.IsFatal
      ((pingAll async (fun _ => net) ctx fuel).run caller) := by
    refine (endsAs_pingAll async hn hfuel caller).congr ?_
    rw [hhosts, hready.all_iff, MainCall.returns]
    split
    · rename_i hall
      exact iff_of_true hall rfl
    · rename_i hnot
      exact iff_of_false hnot Bool.false_ne_true
  have hstop : EndsAs (MainCall.stopAllDaemons.returns s p).isSome (· = Exn.margo)
      ((stopAllDaemons (fun _ => net') ctx 1 fuel).run caller) := by
    refine (endsAs_stopAllDaemons hn hfuel caller).congr ?_
    rw [hhosts, hlisten.all_iff, MainCall.returns]
    split
    · rename_i hall
      exact iff_of_true hall rfl
    · rename_i hnot
      exact iff_of_false hnot Bool.false_ne_true
  refine ⟨⟨hping.returns_iff, fun hnone => hping.raises (by simp [hnone])⟩,
    hstop.returns_iff, fun hnone => ?_⟩
  obtain ⟨e, t, ht, rfl⟩ := hstop.raises (by simp [hnone])
  exact ⟨t, ht⟩

/-- A server on host `a`, and one on host `b` that has not registered `RpcPing` yet. -/
def halfStarted : Port String where
  procs := [
    { host := "a", hosts := ["a", "b"], test := "server", nodeId := 1, pc := 4, server := .live
      client := .live, registered := [.ping, .stopDaemon] },
    { host := "b", hosts := ["a", "b"], test := "server", nodeId := 2, pc := 2, server := .live
      client := .live, registered := [.stopDaemon] }]
  shm host := host = "a"

/-- The client of `halfStarted`. -/
def firstClient : Process String :=
  { host := "a", hosts := ["a", "b"], test := "client", nodeId := 1, pc := 2, client := .live }

/-- What becomes of its pings: that of `b` gets no answer. -/
def halfAnswered (nodeId : NodeId) : CallOutcome := if nodeId = 2 then .waitRaises else .answers

/-- Its ping of `b` gets no answer, and every other call does. -/
theorem clientLoops_return_iff_halfStarted :
    (((∃ t, (pingAll true (fun _ => halfAnswered) twoHosts 3).run {} = some (.ok (), t)) ↔
        (MainCall.pingAll.returns halfStarted firstClient).isSome) ∧
      (MainCall.pingAll.returns halfStarted firstClient = none → ∃ e t,
        (pingAll true (fun _ => halfAnswered) twoHosts 3).run {} = some (.error e, t) ∧
          e.IsFatal)) ∧
    (((∃ t, (stopAllDaemons (fun _ _ => .answers) twoHosts 1 3).run {} = some (.ok (), t)) ↔
        (MainCall.stopAllDaemons.returns halfStarted firstClient).isSome) ∧
      (MainCall.stopAllDaemons.returns halfStarted firstClient = none → ∃ t,
        (stopAllDaemons (fun _ _ => .answers) twoHosts 1 3).run {} = some (.error .margo, t))) :=
  clientLoops_return_iff rfl (by decide) (by decide)
    (fun
      | 0, _, rfl => by decide
      | 1, _, rfl => by decide
      | _ + 2, _, h => by simp [firstClient] at h)
    (fun
      | 0, _, rfl => by decide
      | 1, _, rfl => by decide
      | _ + 2, _, h => by simp [firstClient] at h)
    true {}

/-! ## `main` -/

section Main

variable (ends : MainCall → Except Exn Unit)

/-- A call of `main`: it is made, and comes back as `ends` says. -/
def perform (call : MainCall) : Prog Exn (List MainCall) Unit := do
  modify (· ++ [call])
  lift (ends call)

/-- `try { p } catch (...) { return a; }` -/
def catchAll {σ α : Type} (p : Prog Exn σ α) (a : α) : Prog Exn σ α :=
  tryCatch p fun e => if e.isException then pure a else throw e

/-- The branch of a server. -/
def mainServer (test : String) : Prog Exn (List MainCall) Unit :=
  if test = "server" ∨ test = "touchserver" then do
    perform ends .destroySharedMemory
    perform ends .thalliumServerInit
    perform ends .runnerServerInit
    perform ends .createNewSharedMemory
  else pure ()

/-- The branch of a server that is not to leave. -/
def mainDaemon (test : String) : Prog Exn (List MainCall) Unit :=
  if test = "server" then perform ends .runDaemon else pure ()

/-- The branch of the client on node 1. -/
def mainClient (test : String) (nodeId : NodeId) : Prog Exn (List MainCall) Unit :=
  if test = "client" ∧ nodeId = 1 then do
    perform ends .openSharedMemory
    perform ends .clientInit
    perform ends .pingAll
    -- the handler calls `exit(0)`
    let stopped ← catchAll (do perform ends .stopAllDaemons; return true) false
    if stopped then perform ends .destroySharedMemory else pure ()
  else pure ()

/-- `main` of `chi_net_ping` behind `CHI_RPC->ServerInit`, and its exit status. -/
def main (test : String) (nodeId : NodeId) : Prog Exn (List MainCall) ℕ :=
  catchAll (do
    mainServer ends test
    mainDaemon ends test
    mainClient ends test nodeId
    return 0) 1

/-- The calls made: up to the first that does not return. -/
def performed : List MainCall → List MainCall
  | [] => []
  | call :: calls =>
    match ends call with
    | .ok () => call :: performed calls
    | .error _ => [call]

/-- The first call that does not return, and what it ends with. -/
def failure : List MainCall → Option (MainCall × Exn)
  | [] => none
  | call :: calls =>
    match ends call with
    | .ok () => failure calls
    | .error e => some (call, e)

/-- The exit status of `main`: an exception of `StopAllDaemons` is none to it. -/
def exitStatus : Option (MainCall × Exn) → Except Exn ℕ
  | none => .ok 0
  | some (call, e) =>
    if e.isException then .ok (if call = .stopAllDaemons then 0 else 1) else .error e

/-- How a part of `main` ends: an exception of `StopAllDaemons` goes no further. -/
def partEnd : Option (MainCall × Exn) → Except Exn Unit
  | none => .ok ()
  | some (call, e) => if call = .stopAllDaemons ∧ e.isException then .ok () else .error e

/-- **A part of `main` makes these calls**, up to the first that does not return. -/
def Makes (calls : List MainCall) (p : Prog Exn (List MainCall) Unit) : Prop :=
  ∀ log, p.run log = some (partEnd (failure ends calls), log ++ performed ends calls)

variable {ends}

theorem makes_nil : Makes ends [] (pure ()) := fun log => by
  rw [run_pure, performed, List.append_nil]
  rfl

theorem run_perform (call : MainCall) (log : List MainCall) :
    (perform ends call).run log = some (ends call, log ++ [call]) := rfl

theorem makes_perform {call : MainCall} (hcall : call ≠ .stopAllDaemons) :
    Makes ends [call] (perform ends call) := fun log => by
  rw [run_perform, failure, performed]
  cases ends call with
  | ok _ => rfl
  | error e => simp [partEnd, hcall]

theorem failure_append : ∀ cs ds : List MainCall,
    failure ends (cs ++ ds) = (failure ends cs).or (failure ends ds)
  | [], _ => rfl
  | call :: cs, ds => by
      rw [List.cons_append, failure, failure]
      cases ends call with
      | ok _ => exact failure_append cs ds
      | error e => rfl

theorem performed_append : ∀ cs ds : List MainCall,
    performed ends (cs ++ ds)
      = performed ends cs ++ if failure ends cs = none then performed ends ds else []
  | [], _ => rfl
  | call :: cs, ds => by
      rw [List.cons_append, performed, performed, failure]
      cases ends call with
      | ok _ => exact congrArg (call :: ·) (performed_append cs ds)
      | error e => rfl

theorem mem_of_failure {call : MainCall} {e : Exn} : ∀ {cs : List MainCall},
    failure ends cs = some (call, e) → call ∈ cs
  | [], h => by cases h
  | first :: cs, h => by
      rw [failure] at h
      cases hends : ends first with
      | ok _ =>
        rw [hends] at h
        exact List.mem_cons_of_mem first (mem_of_failure h)
      | error e' =>
        rw [hends] at h
        obtain ⟨rfl, -⟩ := Prod.mk.inj (Option.some.inj h)
        exact List.mem_cons_self

/-- **One part after the other**: only `StopAllDaemons` ends the first without an exception. -/
theorem Makes.bind {cs ds : List MainCall} {p q : Prog Exn (List MainCall) Unit}
    (hp : Makes ends cs p) (hstop : .stopAllDaemons ∉ cs) (hq : Makes ends ds q) :
    Makes ends (cs ++ ds) (p >>= fun _ => q) := by
  intro log
  have hrun := hp log
  rw [failure_append, performed_append]
  cases hfail : failure ends cs with
  | none =>
    rw [hfail] at hrun
    rw [run_bind_ok hrun, hq, if_pos rfl, Option.none_or, List.append_assoc]
  | some failed =>
    obtain ⟨call, e⟩ := failed
    have hne : call ≠ .stopAllDaemons := fun h => hstop (h ▸ mem_of_failure hfail)
    have hend : partEnd (some (call, e)) = .error e := if_neg fun h => hne h.1
    rw [hfail, hend] at hrun
    rw [run_bind_error hrun, if_neg (by simp), Option.some_or, hend, List.append_nil]

theorem makes_mainServer (test : String) : Makes ends
    (if test = "server" ∨ test = "touchserver" then
      [.destroySharedMemory, .thalliumServerInit, .runnerServerInit, .createNewSharedMemory]
    else []) (mainServer ends test) := by
  rw [mainServer]
  split_ifs
  · exact (makes_perform (by simp)).bind (by simp) <|
      (makes_perform (by simp)).bind (by simp) <|
      (makes_perform (by simp)).bind (by simp) (makes_perform (by simp))
  · exact makes_nil

theorem makes_mainDaemon (test : String) :
    Makes ends (if test = "server" then [.runDaemon] else []) (mainDaemon ends test) := by
  rw [mainDaemon]
  split_ifs
  · exact makes_perform (by simp)
  · exact makes_nil

/-- **The end of the client**: `StopAllDaemons`, and `DestroySharedMemory` if that returns. -/
theorem makes_stop : Makes ends [.stopAllDaemons, .destroySharedMemory] (do
    let stopped ← catchAll (do perform ends .stopAllDaemons; return true) false
    if stopped then perform ends .destroySharedMemory else pure ()) := by
  intro log
  have hstop : (perform ends .stopAllDaemons).run log
      = some (ends .stopAllDaemons, log ++ [.stopAllDaemons]) := run_perform _ log
  rw [failure, performed]
  cases hends : ends .stopAllDaemons with
  | ok _ =>
    rw [hends] at hstop
    have htry : (catchAll (do perform ends .stopAllDaemons; return true) false).run log
        = some (.ok true, log ++ [.stopAllDaemons]) := run_tryCatch_ok (run_bind_ok hstop)
    rw [run_bind_ok htry, if_pos rfl, makes_perform (by simp), List.append_assoc]
    rfl
  | error e =>
    rw [hends] at hstop
    have htry : (catchAll (do perform ends .stopAllDaemons; return true) false).run log
        = (if e.isException then pure false else throw e : Prog Exn _ Bool).run
            (log ++ [.stopAllDaemons]) := run_tryCatch_error (run_bind_error hstop)
    cases hexn : e.isException with
    | true =>
      rw [hexn, if_pos rfl] at htry
      rw [run_bind_ok htry]
      simp [partEnd, hexn]
    | false =>
      rw [hexn, if_neg Bool.false_ne_true] at htry
      rw [run_bind_error htry]
      simp [partEnd, hexn]

theorem makes_mainClient (test : String) (nodeId : NodeId) : Makes ends
    (if test = "client" ∧ nodeId.toNat = 1 then
      [.openSharedMemory, .clientInit, .pingAll, .stopAllDaemons, .destroySharedMemory]
    else []) (mainClient ends test nodeId) := by
  have hone : nodeId = 1 ↔ nodeId.toNat = 1 := UInt32.toNat_inj.symm
  simp only [mainClient, hone]
  split_ifs
  · exact (makes_perform (by simp)).bind (by simp) <|
      (makes_perform (by simp)).bind (by simp) <|
      (makes_perform (by simp)).bind (by simp) makes_stop
  · exact makes_nil

/-- **The `try` block of `main` around a part**: the exit status. -/
theorem Makes.run_catchAll {calls : List MainCall} {p : Prog Exn (List MainCall) Unit}
    (hp : Makes ends calls p) : (catchAll (p >>= fun _ => pure 0) 1).run []
      = some (exitStatus (failure ends calls), performed ends calls) := by
  have hrun := hp []
  rw [List.nil_append] at hrun
  rw [catchAll]
  cases hfail : failure ends calls with
  | none =>
    rw [hfail] at hrun
    exact run_tryCatch_ok (run_bind_ok hrun)
  | some failed =>
    obtain ⟨call, e⟩ := failed
    rw [hfail] at hrun
    by_cases hexn : e.isException
    · by_cases hcall : call = .stopAllDaemons
      · rw [partEnd, if_pos ⟨hcall, hexn⟩] at hrun
        rw [exitStatus, if_pos hexn, if_pos hcall]
        exact run_tryCatch_ok (run_bind_ok hrun)
      · rw [partEnd, if_neg fun h => hcall h.1] at hrun
        rw [run_tryCatch_error (run_bind_error hrun), if_pos hexn, exitStatus, if_pos hexn,
          if_neg hcall]
        rfl
    · rw [partEnd, if_neg fun h => hexn h.2] at hrun
      rw [run_tryCatch_error (run_bind_error hrun), if_neg hexn, exitStatus, if_neg hexn]
      rfl

/-- **What `main` calls, and its exit status**, however the calls end: those of `mainCalls` up to
the first that does not return.  The status is 1 if that one ends in an exception, and still 0 if it
is `StopAllDaemons` that does. -/
theorem run_main (test : String) (nodeId : NodeId) :
    (main ends test nodeId).run []
      = some (exitStatus (failure ends (mainCalls test nodeId.toNat)),
          performed ends (mainCalls test nodeId.toNat)) := by
  have hbody : Makes ends (mainCalls test nodeId.toNat) (do
      mainServer ends test
      mainDaemon ends test
      mainClient ends test nodeId) := by
    rw [mainCalls, List.append_assoc]
    refine (makes_mainServer test).bind ?_ ((makes_mainDaemon test).bind ?_
      (makes_mainClient test nodeId))
    · split <;> simp
    · split <;> simp
  have hmain : main ends test nodeId = catchAll ((do
      mainServer ends test
      mainDaemon ends test
      mainClient ends test nodeId) >>= fun _ => pure 0) 1 := by
    rw [main, bind_bind, bind_bind]
  rw [hmain]
  exact hbody.run_catchAll

end Main

end Ping

end ChiNettest
