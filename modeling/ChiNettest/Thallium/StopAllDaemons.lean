import ChiNettest.Thallium.Caller
import Mathlib.Data.List.Nodup
import Mathlib.Data.List.Perm.Subperm

/-!
# Thallium/StopAllDaemons — one failing node, and what becomes of the others

`StopAllDaemons` issues `RpcStopDaemon` to every node and then waits for every response.  Neither
loop catches: the first call that raises leaves the later nodes without their call and every issued
call without its wait, and the first response that raises leaves the later ones unawaited.

`stopsEveryDaemon_iff` is the exact condition under which a run reaches every node it can reach all
the same: no call raises and no response but the last one does, or every call raises.
-/

namespace ChiNettest

open Prog

/-- `ThalliumRpc::StopAllDaemons`.  The parameter `last_node` is never read.
`responses.reserve` only sets a capacity. -/
def stopAllDaemons (net : ℕ → NodeId → CallOutcome) (ctx : RpcContext) (_lastNode : NodeId)
    (fuel : ℕ) : CallerProg Unit := do
  modify Caller.enter
  forNodes ctx.numHosts (postCall net ctx "RpcStopDaemon" 0) fuel
  let s ← get
  forEach s.responses (wait net)

/-- **Every reachable node is told to stop, and every issued call is waited for** — in a run of
`StopAllDaemons` by a caller that has issued nothing before, however that run ends. -/
def StopsEveryDaemon (net : NodeId → CallOutcome) (ctx : RpcContext) : Prop :=
  ∃ fuel r s, (stopAllDaemons (fun _ => net) ctx 1 fuel).run {} = some (r, s) ∧
    (∀ nodeId : NodeId, 0 < nodeId.toNat → nodeId.toNat ≤ ctx.numHosts →
      net nodeId ≠ .issueRaises → s.issued.count ⟨nodeId, "RpcStopDaemon", 0⟩ = 1) ∧
    ∀ id < s.issued.length, id ∈ s.waited

section Runs

variable {net : NodeId → CallOutcome} {ctx : RpcContext}

/-- The calls of a run in which no call raises. -/
def stopCalls (n : ℕ) : List IssuedCall :=
  (nodeIds n).map fun nodeId => ⟨nodeId, "RpcStopDaemon", 0⟩

theorem count_stopCalls {n : ℕ} (hn : n < 2 ^ 32) {nodeId : NodeId} (hmem : nodeId ∈ nodeIds n) :
    (stopCalls n).count ⟨nodeId, "RpcStopDaemon", 0⟩ = 1 := by
  have hinj : Function.Injective fun m : NodeId => (⟨m, "RpcStopDaemon", 0⟩ : IssuedCall) :=
    fun a b hab => congrArg IssuedCall.nodeId hab
  have hnodup : (nodeIds n).Nodup := (pairwise_nodeIds hn).imp fun h => UInt32.ne_of_lt h
  exact List.count_eq_one_of_mem (hnodup.map hinj) (List.mem_map_of_mem hmem)

/-- **The issue loop of a run in which no call raises.** -/
theorem run_stopLoop_ok {fuel : ℕ} (hn : ctx.numHosts < 2 ^ 32 - 1) (hfuel : ctx.numHosts < fuel)
    (hnet : ∀ nodeId ∈ nodeIds ctx.numHosts, net nodeId ≠ .issueRaises) :
    (forNodes ctx.numHosts (postCall (fun _ => net) ctx "RpcStopDaemon" 0) fuel).run {}
      = some (.ok (), { issued := stopCalls ctx.numHosts
                        responses := responsesOf 0 (stopCalls ctx.numHosts) }) := by
  have hbody : ∀ nodeId ∈ nodeIds ctx.numHosts, ∀ t : Caller,
      (postCall (fun _ => net) ctx "RpcStopDaemon" 0 nodeId).run t
        = some (.ok (), t.post ⟨nodeId, "RpcStopDaemon", 0⟩) := fun nodeId hmem t =>
    run_postCall_ok (not_badNode_of_mem_nodeIds (by omega) hmem) (hnet nodeId hmem) _ _
  rw [forNodes_eq_forEach hn hfuel, run_forEach_ok _ _ hbody,
    ← List.foldl_map (f := fun nodeId : NodeId => (⟨nodeId, "RpcStopDaemon", 0⟩ : IssuedCall))
      (g := Caller.post), foldl_post]
  rfl

/-- **An issue loop that returns normally has raised nowhere.** -/
theorem issues_of_stopLoop_ok {fuel : ℕ} {t : Caller}
    (h : (forNodes ctx.numHosts (postCall (fun _ => net) ctx "RpcStopDaemon" 0) fuel).run {}
      = some (.ok (), t)) :
    ctx.numHosts < 2 ^ 32 - 1 ∧ ∀ nodeId ∈ nodeIds ctx.numHosts, net nodeId ≠ .issueRaises := by
  have hn : ctx.numHosts < 2 ^ 32 - 1 := numHosts_lt_of_forNodes_ok h
  refine ⟨hn, ?_⟩
  by_contra! hraises
  -- the first node whose call raises ends the loop with that exception
  obtain ⟨pre, c, post, hsplit, hcnet, hpre⟩ := exists_first hraises
  have hgood : ∀ m ∈ nodeIds ctx.numHosts, ¬ BadNode ctx.hosts m :=
    fun m => not_badNode_of_mem_nodeIds (by omega)
  rw [hsplit] at hgood
  have hposts : ∀ m ∈ pre, ∀ s : Caller, (postCall (fun _ => net) ctx "RpcStopDaemon" 0 m).run s
      = some (.ok (), s.post ⟨m, "RpcStopDaemon", 0⟩) := fun m hm s =>
    run_postCall_ok (hgood m (by simp [hm])) (hpre m hm) _ _
  have hthrows : ∀ s : Caller, (postCall (fun _ => net) ctx "RpcStopDaemon" 0 c).run s
      = some (.error .margo, s) := fun s =>
    run_postCall_margo (hgood c (by simp)) hcnet _ _
  have hmore : (forNodes ctx.numHosts (postCall (fun _ => net) ctx "RpcStopDaemon" 0)
      (max fuel (ctx.numHosts + 1))).run {} = some (.ok (), t) :=
    forNodes_le (fun _ => Le.refl _) (le_max_left _ _) _ _ h
  rw [forNodes_eq_forEach hn (by omega), hsplit,
    run_forEach_throws hposts (hthrows _)] at hmore
  exact absurd (Prod.mk.inj (Option.some.inj hmore)).1 (by simp)

/-- An issue loop that ends early has waited for nothing. -/
theorem waited_of_stopLoop {fuel : ℕ} {r : Except Exn Unit} {t : Caller}
    (h : (forNodes ctx.numHosts (postCall (fun _ => net) ctx "RpcStopDaemon" 0) fuel).run {}
      = some (r, t)) :
    t.waited = [] := by
  rw [forNodes] at h
  refine forLoop_preserves (I := fun s => s.waited = []) (fun m s r t hs hrun => ?_)
    (fun m s r t hs hrun => ?_) fuel 1 {} r t rfl h
  · exact (postCall_waited hrun).trans hs
  · obtain ⟨-, rfl⟩ := Prod.mk.inj (Option.some.inj hrun)
    exact hs

/-- **The wait loop of a run in which no response but the last raises** waits for all of them. -/
theorem run_waitLoop_all {resps : List AsyncResponse} {s : Caller}
    (hnet : ∀ r ∈ resps, net r.nodeId ≠ .waitRaises) (resp : AsyncResponse) :
    ∃ r, (forEach (resps ++ [resp]) (wait fun _ => net)).run s
      = some (r, { s with waited := s.waited ++ (resps ++ [resp]).map AsyncResponse.id }) := by
  have hpre : (forEach resps (wait fun _ => net)).run s
      = some (.ok (), { s with waited := s.waited ++ resps.map AsyncResponse.id }) := by
    rw [run_forEach_ok resps s fun r hr t => run_wait_ok (hnet r hr), foldl_await]
  rw [run_forEach_append, run_bind_ok hpre, forEach_cons]
  by_cases hlast : net resp.nodeId = .waitRaises
  · exact ⟨.error .margo, by
      rw [run_bind_error (run_wait_margo hlast)]; simp [Caller.await]⟩
  · exact ⟨.ok (), by
      rw [run_bind_ok (run_wait_ok hlast), forEach_nil, run_pure]; simp [Caller.await]⟩

/-- **The wait loop stops at the first response that raises.** -/
theorem run_waitLoop_raises {pre post : List AsyncResponse} {resp : AsyncResponse} {s : Caller}
    (hpre : ∀ r ∈ pre, net r.nodeId ≠ .waitRaises) (hresp : net resp.nodeId = .waitRaises) :
    (forEach (pre ++ resp :: post) (wait fun _ => net)).run s = some (.error .margo,
      { s with waited := s.waited ++ (pre ++ [resp]).map AsyncResponse.id }) := by
  rw [run_forEach_throws (fun r hr t => run_wait_ok (hpre r hr)) (run_wait_margo hresp),
    foldl_await]
  simp [Caller.await]

/-- `StopAllDaemons` is its issue loop, then the wait loop over the responses kept. -/
theorem run_stopAllDaemons (fuel : ℕ) :
    (stopAllDaemons (fun _ => net) ctx 1 fuel).run {}
      = ((forNodes ctx.numHosts (postCall (fun _ => net) ctx "RpcStopDaemon" 0) fuel).run {}).bind
          (andThen fun _ => fun t => (forEach t.responses (wait fun _ => net)).run t) := rfl

theorem length_stopCalls (n : ℕ) : (stopCalls n).length = n := by simp [stopCalls]

theorem map_nodeId_stopResponses (n : ℕ) :
    (responsesOf 0 (stopCalls n)).map AsyncResponse.nodeId = nodeIds n := by
  rw [map_nodeId_responsesOf, stopCalls, List.map_map]
  exact List.map_id _

/-- **The last response is that of the last node**, the others come from the nodes before. -/
theorem stopResponses_concat {n : ℕ} (hn : n < 2 ^ 32) {init : List AsyncResponse}
    {last : AsyncResponse} (hsplit : responsesOf 0 (stopCalls n) = init ++ [last]) :
    last.nodeId.toNat = n ∧ ∀ q ∈ init, 0 < q.nodeId.toNat ∧ q.nodeId.toNat < n := by
  have hnodes : init.map AsyncResponse.nodeId ++ [last.nodeId] = nodeIds n := by
    rw [← map_nodeId_stopResponses, hsplit, List.map_append]
    rfl
  have hlen : init.length + 1 = n := by simpa using congrArg List.length hnodes
  have hnode : ∀ (i : ℕ) (m : NodeId),
      (init.map AsyncResponse.nodeId ++ [last.nodeId])[i]? = some m → i < n → m.toNat = i + 1 := by
    intro i m hget hi
    rw [hnodes, List.getElem?_eq_getElem (by simpa using hi), getElem_nodeIds] at hget
    rw [← Option.some.inj hget, UInt32.toNat_ofNat_of_lt' (show i + 1 < 2 ^ 32 by omega)]
  refine ⟨(hnode init.length _ (by simp) (by omega)).trans hlen, fun q hq => ?_⟩
  obtain ⟨i, hi, rfl⟩ := List.getElem_of_mem hq
  have hinit := hnode i init[i].nodeId
    (by rw [List.getElem?_append_left (by simpa using hi)]; simp [hi]) (by omega)
  omega

/-- Nothing is left after a prefix of the responses that holds every call. -/
theorem stopResponses_post_nil {n : ℕ} {pre post : List AsyncResponse} {c : AsyncResponse}
    (hsplit : responsesOf 0 (stopCalls n) = pre ++ c :: post)
    (hall : ∀ id < n, id ∈ (pre ++ [c]).map AsyncResponse.id) : post = [] := by
  have hlen : n ≤ pre.length + 1 := by
    have hsub : List.range n ⊆ (pre ++ [c]).map AsyncResponse.id := fun id hid =>
      hall id (List.mem_range.mp hid)
    simpa using (List.nodup_range.subperm hsub).length_le
  have htotal : (responsesOf 0 (stopCalls n)).length = n := by
    rw [responsesOf, List.length_map, List.length_zipIdx, length_stopCalls]
  rw [hsplit, List.length_append, List.length_cons] at htotal
  exact List.length_eq_zero_iff.mp (by omega)

/-- **Waiting for all the responses has passed over every node but the last without an
exception.** -/
theorem waitRaises_last_of_all {n : ℕ} (hn : n < 2 ^ 32) {s t : Caller} {r : Except Exn Unit}
    (hwaited : s.waited = [])
    (h : (forEach (responsesOf 0 (stopCalls n)) (wait fun _ => net)).run s = some (r, t))
    (hall : ∀ id < n, id ∈ t.waited) :
    ∀ nodeId ∈ nodeIds n, net nodeId = .waitRaises → nodeId.toNat = n := by
  intro nodeId hmem hraise
  rw [← map_nodeId_stopResponses] at hmem
  obtain ⟨resp, hresp, rfl⟩ := List.mem_map.mp hmem
  have hraises : ∃ q ∈ responsesOf 0 (stopCalls n), net q.nodeId = .waitRaises :=
    ⟨resp, hresp, hraise⟩
  obtain ⟨pre, c, post, hsplit, hcnet, hpre⟩ := exists_first hraises
  rw [hsplit, run_waitLoop_raises hpre hcnet] at h
  obtain ⟨-, rfl⟩ := Prod.mk.inj (Option.some.inj h)
  obtain rfl : post = [] :=
    stopResponses_post_nil hsplit fun id hid => by simpa [hwaited] using hall id hid
  rw [hsplit] at hresp
  rcases List.mem_append.mp hresp with hin | hlast
  · exact absurd hraise (hpre resp hin)
  · obtain rfl := List.mem_singleton.mp hlast
    exact (stopResponses_concat hn hsplit).1

/-- The wait loop after the issue loop, when no response raises but the last. -/
theorem run_stopWaits {n : ℕ} (hn : n < 2 ^ 32)
    (hwait : ∀ nodeId : NodeId, 0 < nodeId.toNat → nodeId.toNat < n → net nodeId ≠ .waitRaises) :
    ∃ r s, (forEach (responsesOf 0 (stopCalls n)) (wait fun _ => net)).run
        { issued := stopCalls n, responses := responsesOf 0 (stopCalls n) } = some (r, s) ∧
      s.issued = stopCalls n ∧ s.waited = List.range' 0 n := by
  have hids : (responsesOf 0 (stopCalls n)).map AsyncResponse.id = List.range' 0 n := by
    rw [map_id_responsesOf, length_stopCalls]
  rcases List.eq_nil_or_concat (responsesOf 0 (stopCalls n)) with hnil | ⟨init, last, hsplit⟩
  · rw [hnil] at hids ⊢
    exact ⟨.ok (), _, rfl, rfl, hids⟩
  · rw [List.concat_eq_append] at hsplit
    have hinit : ∀ q ∈ init, net q.nodeId ≠ .waitRaises := fun q hq => by
      obtain ⟨hpos, hlt⟩ := (stopResponses_concat hn hsplit).2 q hq
      exact hwait _ hpos hlt
    obtain ⟨r, hrun⟩ := run_waitLoop_all hinit last
    rw [hsplit] at hids ⊢
    refine ⟨r, _, hrun, rfl, ?_⟩
    rw [← hids]
    rfl

/-- The wait loop issues nothing. -/
theorem issued_of_waitLoop {resps : List AsyncResponse} {s t : Caller} {r : Except Exn Unit}
    (h : (forEach resps (wait fun _ => net)).run s = some (r, t)) : t.issued = s.issued := by
  refine forEach_preserves (I := fun v => v.issued = s.issued) (fun c v q w hv hq => ?_) _ _ _ _
    rfl h
  by_cases hraise : net c.nodeId = .waitRaises
  · rw [run_wait_margo hraise] at hq
    obtain ⟨-, rfl⟩ := Prod.mk.inj (Option.some.inj hq)
    exact hv
  · rw [run_wait_ok hraise] at hq
    obtain ⟨-, rfl⟩ := Prod.mk.inj (Option.some.inj hq)
    exact hv

/-- **An issue loop that throws has issued nothing**, where every call issued has been waited
for. -/
theorem all_raise_of_stopLoop {fuel : ℕ} {r : Except Exn Unit} {t : Caller}
    (h : (forNodes ctx.numHosts (postCall (fun _ => net) ctx "RpcStopDaemon" 0) fuel).run {}
      = some (r, t))
    (hcount : ∀ nodeId : NodeId, 0 < nodeId.toNat → nodeId.toNat ≤ ctx.numHosts →
      net nodeId ≠ .issueRaises → t.issued.count ⟨nodeId, "RpcStopDaemon", 0⟩ = 1)
    (hwait : ∀ id < t.issued.length, id ∈ t.waited) (nodeId : NodeId) (hpos : 0 < nodeId.toNat)
    (hle : nodeId.toNat ≤ ctx.numHosts) : net nodeId = .issueRaises := by
  by_contra hnet
  have hone := hcount nodeId hpos hle hnet
  have hissued : 0 < t.issued.length :=
    List.length_pos_of_mem
      (List.count_pos_iff.mp (Nat.lt_of_lt_of_eq Nat.zero_lt_one hone.symm))
  have hmem := hwait 0 hissued
  rw [waited_of_stopLoop h] at hmem
  exact absurd hmem List.not_mem_nil

/-- What an issue loop that returns normally leaves. -/
theorem eq_of_stopLoop_ok {fuel : ℕ} {t : Caller}
    (h : (forNodes ctx.numHosts (postCall (fun _ => net) ctx "RpcStopDaemon" 0) fuel).run {}
      = some (.ok (), t)) :
    t = { issued := stopCalls ctx.numHosts
          responses := responsesOf 0 (stopCalls ctx.numHosts) } := by
  obtain ⟨hn, hnet⟩ := issues_of_stopLoop_ok h
  have hmore := forNodes_le (fun _ => Le.refl _) (le_max_left fuel (ctx.numHosts + 1)) _ _ h
  exact (Prod.mk.inj (Option.some.inj (hmore.symm.trans (run_stopLoop_ok hn (by omega) hnet)))).2

/-- Where every call raises, the first one ends the run with nothing issued. -/
theorem stopsEveryDaemon_of_all_raise
    (hall : ∀ nodeId : NodeId, 0 < nodeId.toNat → nodeId.toNat ≤ ctx.numHosts →
      net nodeId = .issueRaises) : StopsEveryDaemon net ctx := by
  suffices hrun : ∃ r, (stopAllDaemons (fun _ => net) ctx 1 1).run {} = some (r, {}) by
    obtain ⟨r, hrun⟩ := hrun
    refine ⟨1, r, {}, hrun, fun m hpos hle hnet => absurd (hall m hpos hle) hnet, ?_⟩
    intro id hid
    exact absurd hid (Nat.not_lt_zero id)
  rw [run_stopAllDaemons, forNodes, forLoop]
  by_cases hone : (1 : NodeId).toNat ≤ ctx.numHosts
  · have hissue : ∃ e, (issueCall (fun _ => net) ctx 1 "RpcStopDaemon" 0).run {}
        = some (.error e, {}) :=
      run_issueCall_raises (hall 1 (by decide) hone) _ _
    obtain ⟨e, he⟩ := hissue
    have hpost : (postCall (fun _ => net) ctx "RpcStopDaemon" 0 1).run {} = some (.error e, {}) :=
      run_bind_error he
    refine ⟨.error e, ?_⟩
    rw [if_pos (decide_eq_true hone), run_bind_error hpost]
    rfl
  · refine ⟨.ok (), ?_⟩
    rw [if_neg (by simpa using hone)]
    rfl

/-- Where no call raises and no response but the last, every daemon is told and waited for. -/
theorem stopsEveryDaemon_of_ok (hn : ctx.numHosts < 2 ^ 32 - 1)
    (hnet : ∀ nodeId : NodeId, 0 < nodeId.toNat → nodeId.toNat ≤ ctx.numHosts →
      net nodeId ≠ .issueRaises)
    (hwait : ∀ nodeId : NodeId, 0 < nodeId.toNat → nodeId.toNat < ctx.numHosts →
      net nodeId ≠ .waitRaises) : StopsEveryDaemon net ctx := by
  have hn32 : ctx.numHosts < 2 ^ 32 := by omega
  have hloop := run_stopLoop_ok hn (Nat.lt_succ_self _) fun m hm =>
    hnet m ((mem_nodeIds hn32).mp hm).1 ((mem_nodeIds hn32).mp hm).2
  obtain ⟨r, s, hrest, hissued, hwaited⟩ := run_stopWaits hn32 hwait
  refine ⟨ctx.numHosts + 1, r, s, ?_, fun m hpos hle _ => ?_, ?_⟩
  · rw [run_stopAllDaemons, hloop]
    exact hrest
  · rw [hissued]
    exact count_stopCalls hn32 ((mem_nodeIds hn32).mpr ⟨hpos, hle⟩)
  · intro id hid
    rw [hissued, length_stopCalls] at hid
    rw [hwaited]
    exact List.mem_range'_1.mpr ⟨Nat.zero_le id, by omega⟩

end Runs

/-- **When a run of `StopAllDaemons` reaches every node it can reach and waits for every call it
issued**: every call raises, or no call raises and no response does but that of the last node (on
fewer than `2 ^ 32 - 1` hosts, where its node loop ends). -/
theorem stopsEveryDaemon_iff (net : NodeId → CallOutcome) (ctx : RpcContext) :
    StopsEveryDaemon net ctx ↔
      (∀ nodeId : NodeId, 0 < nodeId.toNat → nodeId.toNat ≤ ctx.numHosts →
        net nodeId = .issueRaises) ∨
      (ctx.numHosts < 2 ^ 32 - 1 ∧
        (∀ nodeId : NodeId, 0 < nodeId.toNat → nodeId.toNat ≤ ctx.numHosts →
          net nodeId ≠ .issueRaises) ∧
        ∀ nodeId : NodeId, 0 < nodeId.toNat → nodeId.toNat < ctx.numHosts →
          net nodeId ≠ .waitRaises) := by
  constructor
  · rintro ⟨fuel, r, s, hrun, hcount, hwait⟩
    rw [run_stopAllDaemons, Option.bind_eq_some_iff] at hrun
    obtain ⟨⟨e | u, t⟩, hloop, hrun⟩ := hrun
    · left
      obtain ⟨-, rfl⟩ : .error e = r ∧ t = s := by simpa [andThen] using hrun
      exact all_raise_of_stopLoop hloop hcount hwait
    · right
      obtain ⟨hn, hnet⟩ := issues_of_stopLoop_ok hloop
      have hn32 : ctx.numHosts < 2 ^ 32 := by omega
      obtain rfl := eq_of_stopLoop_ok hloop
      have hwaits : (forEach (responsesOf 0 (stopCalls ctx.numHosts)) (wait fun _ => net)).run
          { issued := stopCalls ctx.numHosts
            responses := responsesOf 0 (stopCalls ctx.numHosts) } = some (r, s) := hrun
      rw [issued_of_waitLoop hwaits, length_stopCalls] at hwait
      refine ⟨hn, fun m hpos hle => hnet m ((mem_nodeIds hn32).mpr ⟨hpos, hle⟩), ?_⟩
      intro m hpos hlt hraise
      have hlast := waitRaises_last_of_all hn32 rfl hwaits hwait m
        ((mem_nodeIds hn32).mpr ⟨hpos, hlt.le⟩) hraise
      omega
  · rintro (hall | ⟨hn, hnet, hwait⟩)
    · exact stopsEveryDaemon_of_all_raise hall
    · exact stopsEveryDaemon_of_ok hn hnet hwait

/-- The first node cannot be called, the others answer. -/
def firstNodeDown (nodeId : NodeId) : CallOutcome :=
  if nodeId = 1 then .issueRaises else .answers

/-- **A dead first node leaves the daemon of the second one running.** -/
theorem not_stopsEveryDaemon_firstNodeDown : ¬ StopsEveryDaemon firstNodeDown twoHosts := by
  rintro ⟨fuel, r, s, hrun, hcount, -⟩
  obtain _ | fuel := fuel
  · exact absurd hrun (by simp [run_stopAllDaemons, forNodes, forLoop])
  · have hpost : (postCall (fun _ => firstNodeDown) twoHosts "RpcStopDaemon" 0 1).run {}
        = some (.error .margo, {}) := run_postCall_margo (by decide) rfl _ _
    have hloop : (forNodes twoHosts.numHosts
        (postCall (fun _ => firstNodeDown) twoHosts "RpcStopDaemon" 0) (fuel + 1)).run {}
        = some (.error .margo, {}) := by
      rw [forNodes, forLoop, if_pos (by decide), run_bind_error hpost]
    rw [run_stopAllDaemons, hloop] at hrun
    obtain ⟨-, rfl⟩ := Prod.mk.inj (Option.some.inj hrun)
    exact absurd (hcount 2 (by decide) (by decide) (by decide)) (by decide)

end ChiNettest
