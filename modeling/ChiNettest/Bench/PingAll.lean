import ChiNettest.Thallium.Caller

/-!
# Bench/PingAll — the two ways of counting the nodes that answer

`PingAll<false>` catches around each call, and counts a call that returns.  `PingAll<true>` catches
around each call too, but once around the whole of its wait loop: it counts the responses before the
first one that raises (`run_waitCount`).

The two counts are the number of nodes that answer exactly when no node that answers comes after one
whose response raises (`pingsAgree_iff`).
-/

namespace ChiNettest

open Prog

/-! ## The program -/

section Program

variable (async : Bool) (net : ℕ → NodeId → CallOutcome) (ctx : RpcContext)

/-- The body of the node loop of `PingAll`. -/
def pingNode (nodeId : NodeId) : CallerProg Unit :=
  catchMargo <|
    if async then postCall net ctx "RpcPing" 0 nodeId
    else do
      syncCall net ctx nodeId "RpcPing" 0
      modify Caller.bump

/-- The body of the wait loop of `PingAll`. -/
def waitCount (resp : AsyncResponse) : CallerProg Unit := do
  wait net resp
  modify Caller.bump

/-- `TestRunner::PingAll<ASYNC>`, and the count it logs. -/
def pingAll (fuel : ℕ) : CallerProg ℕ := do
  modify Caller.enter
  forNodes ctx.numHosts (pingNode async net ctx) fuel
  if async then
    let s ← get
    catchMargo (forEach s.responses (waitCount net))
  let s ← get
  return s.count

end Program

/-- The number of nodes that answer. -/
def answering (net : NodeId → CallOutcome) (n : ℕ) : ℕ :=
  (nodeIds n).countP fun nodeId => net nodeId = .answers

/-- **Both variants finish normally and report the number of nodes that answer.** -/
def PingsAgree (net : NodeId → CallOutcome) (ctx : RpcContext) : Prop :=
  ∀ async, ∃ fuel s, (pingAll async (fun _ => net) ctx fuel).run {} =
    some (.ok (answering net ctx.numHosts), s)

/-! ## A count that stops early -/

/-- **A count that stops at the first failure is the full count** exactly when nothing after a
failure passes. -/
theorem length_takeWhile_eq_countP_iff {α : Type*} (p : α → Bool) :
    ∀ l : List α, (l.takeWhile p).length = l.countP p ↔
      l.Pairwise fun a b => p a = false → p b = false
  | [] => by simp
  | a :: l => by
      have ih := length_takeWhile_eq_countP_iff p l
      rw [List.pairwise_cons]
      cases ha : p a with
      | true => simp [ha, ih]
      | false =>
        have hzero : l.countP p = 0 ↔ ∀ b ∈ l, p b = false := by simp [List.countP_eq_zero]
        rw [List.takeWhile_cons_of_neg (by simp [ha]), List.countP_cons_of_neg (by simp [ha]),
          List.length_nil, eq_comm, hzero]
        refine ⟨fun h => ⟨fun b hb _ => h b hb, ?_⟩, fun h b hb => h.1 b hb rfl⟩
        exact List.pairwise_of_forall_mem_list fun b _ c hc _ => h c hc

/-! ## The two variants, run -/

section One

variable {net : ℕ → NodeId → CallOutcome} {ctx : RpcContext}

/-- What one synchronous ping leaves behind. -/
def pinged (net : ℕ → NodeId → CallOutcome) (s : Caller) (nodeId : NodeId) : Caller :=
  match net s.issued.length nodeId with
  | .issueRaises => s
  | .waitRaises => s.issue ⟨nodeId, "RpcPing", 0⟩
  | .answers => (s.issue ⟨nodeId, "RpcPing", 0⟩).bump

theorem run_pingNode_sync {nodeId : NodeId} (hgood : ¬ BadNode ctx.hosts nodeId) (s : Caller) :
    (pingNode false net ctx nodeId).run s = some (.ok (), pinged net s nodeId) := by
  rw [pingNode, if_neg Bool.false_ne_true, pinged]
  cases hnet : net s.issued.length nodeId with
  | issueRaises =>
    have hcall := run_issueCall_margo hgood hnet "RpcPing" 0
    exact run_catchMargo_margo (run_bind_error (run_bind_error hcall))
  | waitRaises =>
    exact run_catchMargo_margo (run_bind_error (run_syncCall_margo hgood hnet _ _))
  | answers =>
    exact run_catchMargo_ok (run_bind_ok (run_syncCall_ok hgood hnet _ _))

theorem run_pingNode_async {nodeId : NodeId} (hgood : ¬ BadNode ctx.hosts nodeId) (s : Caller) :
    (pingNode true net ctx nodeId).run s = some (.ok (),
      if net s.issued.length nodeId ≠ .issueRaises then s.post ⟨nodeId, "RpcPing", 0⟩ else s) := by
  rw [pingNode, if_pos rfl]
  by_cases hnet : net s.issued.length nodeId = .issueRaises
  · rw [if_neg (not_not.mpr hnet)]
    exact run_catchMargo_margo (run_postCall_margo hgood hnet _ _)
  · rw [if_pos hnet]
    exact run_catchMargo_ok (run_postCall_ok hgood hnet _ _)

end One

section Runs

variable {net : NodeId → CallOutcome} {ctx : RpcContext}

theorem count_foldl_pinged : ∀ (ids : List NodeId) (s : Caller),
    (ids.foldl (pinged fun _ => net) s).count = s.count + ids.countP fun m => net m = .answers
  | [], s => rfl
  | m :: ids, s => by
      rw [List.foldl_cons, count_foldl_pinged ids, pinged]
      cases hnet : net m <;> simp [hnet, Caller.issue, Caller.bump]
      omega

/-- **The synchronous variant counts every node that answers.** -/
theorem run_pingAll_sync {fuel : ℕ} (hn : ctx.numHosts < 2 ^ 32 - 1)
    (hfuel : ctx.numHosts < fuel) :
    ∃ s, (pingAll false (fun _ => net) ctx fuel).run {}
      = some (.ok (answering net ctx.numHosts), s) := by
  have hloop : (forNodes ctx.numHosts (pingNode false (fun _ => net) ctx) fuel).run {}
      = some (.ok (), (nodeIds ctx.numHosts).foldl (pinged fun _ => net) {}) := by
    rw [forNodes_eq_forEach hn hfuel]
    exact run_forEach_ok _ _ fun m hm t =>
      run_pingNode_sync (not_badNode_of_mem_nodeIds (by omega) hm) t
  have hcount : ((nodeIds ctx.numHosts).foldl (pinged fun _ => net) {}).count
      = answering net ctx.numHosts :=
    (count_foldl_pinged _ {}).trans (Nat.zero_add _)
  refine ⟨(nodeIds ctx.numHosts).foldl (pinged fun _ => net) {}, (run_bind_ok hloop).trans ?_⟩
  rw [← hcount]
  rfl

/-- The calls the asynchronous variant issues. -/
def pingCalls (net : NodeId → CallOutcome) (n : ℕ) : List IssuedCall :=
  ((nodeIds n).filter fun m => net m ≠ .issueRaises).map fun m => ⟨m, "RpcPing", 0⟩

/-- The issue loop of the asynchronous variant passes over the nodes that cannot be called. -/
theorem run_pingLoop_async {fuel : ℕ} (hn : ctx.numHosts < 2 ^ 32 - 1)
    (hfuel : ctx.numHosts < fuel) :
    (forNodes ctx.numHosts (pingNode true (fun _ => net) ctx) fuel).run {}
      = some (.ok (), { issued := pingCalls net ctx.numHosts
                        responses := responsesOf 0 (pingCalls net ctx.numHosts) }) := by
  rw [forNodes_eq_forEach hn hfuel, run_forEach_ok _ _ fun m hm t =>
    run_pingNode_async (not_badNode_of_mem_nodeIds (by omega) hm) t]
  have hposts : (nodeIds ctx.numHosts).foldl (fun (t : Caller) m =>
      if net m ≠ .issueRaises then t.post ⟨m, "RpcPing", 0⟩ else t) {}
      = (pingCalls net ctx.numHosts).foldl Caller.post {} := by
    rw [pingCalls, List.foldl_map, List.foldl_filter]
    simp only [decide_eq_true_eq]
  rw [hposts, foldl_post]
  rfl

/-- **The wait loop counts the responses before the first one that raises.** -/
theorem run_waitCount : ∀ (resps : List AsyncResponse) (s : Caller),
    ∃ t, (catchMargo (forEach resps (waitCount (fun _ => net)))).run s = some (.ok (), t) ∧
      t.count = s.count + (resps.takeWhile fun r => net r.nodeId ≠ .waitRaises).length
  | [], s => ⟨s, rfl, rfl⟩
  | resp :: resps, s => by
      by_cases hnet : net resp.nodeId = .waitRaises
      · have hbody : (waitCount (fun _ => net) resp).run s
            = some (.error .margo, s.await resp.id) := run_bind_error (run_wait_margo hnet)
        refine ⟨s.await resp.id, run_catchMargo_margo (run_bind_error hbody), ?_⟩
        rw [List.takeWhile_cons_of_neg (by simp [hnet])]
        rfl
      · have hbody : (waitCount (fun _ => net) resp).run s
            = some (.ok (), (s.await resp.id).bump) := run_bind_ok (run_wait_ok hnet)
        obtain ⟨t, hrun, hcount⟩ := run_waitCount resps (s.await resp.id).bump
        refine ⟨t, (run_catchMargo_congr (run_bind_ok hbody)).trans hrun, ?_⟩
        rw [hcount, List.takeWhile_cons_of_pos (by simp [hnet]), List.length_cons]
        simp only [Caller.bump, Caller.await]
        omega

variable (net) in
/-- **The asynchronous variant reports the responses before the first one that raises.** -/
theorem run_pingAll_async {fuel : ℕ} (hn : ctx.numHosts < 2 ^ 32 - 1)
    (hfuel : ctx.numHosts < fuel) :
    ∃ s, (pingAll true (fun _ => net) ctx fuel).run {} = some (.ok
      (((nodeIds ctx.numHosts).filter fun m => net m ≠ .issueRaises).takeWhile
        fun m => net m ≠ .waitRaises).length, s) := by
  have hnodes : (responsesOf 0 (pingCalls net ctx.numHosts)).map AsyncResponse.nodeId
      = (nodeIds ctx.numHosts).filter fun m => net m ≠ .issueRaises := by
    rw [map_nodeId_responsesOf, pingCalls, List.map_map]
    exact List.map_id _
  obtain ⟨t, hwaits, hcount⟩ := run_waitCount (responsesOf 0 (pingCalls net ctx.numHosts))
    { issued := pingCalls net ctx.numHosts
      responses := responsesOf 0 (pingCalls net ctx.numHosts) }
  refine ⟨t, (run_bind_ok (run_pingLoop_async hn hfuel)).trans ((run_bind_ok hwaits).trans ?_)⟩
  rw [← hnodes, List.takeWhile_map, List.length_map, ← Nat.zero_add (List.length _)]
  exact congrArg (fun k => some (Except.ok k, t)) hcount

/-- More fuel changes nothing once a run has ended. -/
theorem pingAll_mono {async : Bool} {fuel fuel' : ℕ} (hle : fuel ≤ fuel')
    {r : Except Exn ℕ × Caller} (h : (pingAll async (fun _ => net) ctx fuel).run {} = some r) :
    (pingAll async (fun _ => net) ctx fuel').run {} = some r := by
  have hloop : Le (forNodes ctx.numHosts (pingNode async (fun _ => net) ctx) fuel)
      (forNodes ctx.numHosts (pingNode async (fun _ => net) ctx) fuel') :=
    forNodes_le (fun _ => Le.refl _) hle
  exact ((Le.refl _).bind fun _ => hloop.bind fun _ => Le.refl _) {} r h

/-- A run that ends normally has left its node loop. -/
theorem numHosts_lt_of_pingAll_ok {async : Bool} {fuel count : ℕ} {s : Caller}
    (h : (pingAll async (fun _ => net) ctx fuel).run {} = some (.ok count, s)) :
    ctx.numHosts < 2 ^ 32 - 1 := by
  obtain ⟨_, t, -, h⟩ := of_run_bind_ok h
  obtain ⟨_, t', hloop, -⟩ := of_run_bind_ok h
  exact numHosts_lt_of_forNodes_ok hloop

/-- **The asynchronous count is the number of nodes that answer** exactly when no such node comes
after one whose response raises. -/
theorem asyncCount_eq_answering_iff (net : NodeId → CallOutcome) {n : ℕ} (hn : n < 2 ^ 32) :
    (((nodeIds n).filter fun m => net m ≠ .issueRaises).takeWhile
        fun m => net m ≠ .waitRaises).length = answering net n ↔
      ∀ i j : NodeId, 0 < i.toNat → i < j → j.toNat ≤ n →
        net i = .waitRaises → net j ≠ .answers := by
  have hcount : ((nodeIds n).filter fun m => net m ≠ .issueRaises).countP
      (fun m => net m ≠ .waitRaises) = answering net n := by
    rw [answering, List.countP_filter]
    refine List.countP_congr fun m _ => ?_
    cases net m <;> simp
  rw [← hcount, length_takeWhile_eq_countP_iff, List.pairwise_filter, pairwise_nodeIds_iff hn]
  refine forall₂_congr fun i j => forall₃_congr fun _ _ _ => ?_
  cases net i <;> cases net j <;> simp

end Runs

/-- **When the synchronous and the asynchronous ping agree**: on fewer than `2 ^ 32 - 1` hosts,
where their node loop ends, and with no node that answers after one whose response raises. -/
theorem pingsAgree_iff (net : NodeId → CallOutcome) (ctx : RpcContext) :
    PingsAgree net ctx ↔
      ctx.numHosts < 2 ^ 32 - 1 ∧
        ∀ i j : NodeId, 0 < i.toNat → i < j → j.toNat ≤ ctx.numHosts →
          net i = .waitRaises → net j ≠ .answers := by
  constructor
  · intro hagree
    obtain ⟨fuel, s, hrun⟩ := hagree true
    have hn := numHosts_lt_of_pingAll_ok hrun
    refine ⟨hn, (asyncCount_eq_answering_iff net (by omega)).mp ?_⟩
    have hmore := pingAll_mono (le_max_left fuel (ctx.numHosts + 1)) hrun
    obtain ⟨t, hasync⟩ := run_pingAll_async net hn
      (lt_of_lt_of_le (Nat.lt_succ_self _) (le_max_right fuel (ctx.numHosts + 1)))
    rw [hasync] at hmore
    exact Except.ok.inj (Prod.mk.inj (Option.some.inj hmore)).1
  · rintro ⟨hn, horder⟩ (_ | _)
    · exact ⟨ctx.numHosts + 1, run_pingAll_sync hn (Nat.lt_succ_self _)⟩
    · obtain ⟨s, hasync⟩ := run_pingAll_async net hn (Nat.lt_succ_self _)
      refine ⟨ctx.numHosts + 1, s, ?_⟩
      rw [hasync, (asyncCount_eq_answering_iff net (by omega)).mpr horder]

/-- The response of the first node raises, the others answer. -/
def firstResponseLost (nodeId : NodeId) : CallOutcome :=
  if nodeId = 1 then .waitRaises else .answers

/-- **A lost response of the first of two nodes**: one of them answers, which the synchronous
variant reports, and the asynchronous one reports none. -/
theorem not_pingsAgree_firstResponseLost :
    ((pingAll false (fun _ => firstResponseLost) twoHosts 3).run {}).map Prod.fst = some (.ok 1) ∧
      ((pingAll true (fun _ => firstResponseLost) twoHosts 3).run {}).map Prod.fst = some (.ok 0) ∧
      ¬ PingsAgree firstResponseLost twoHosts := by
  have hzero : ((pingAll true (fun _ => firstResponseLost) twoHosts 3).run {}).map Prod.fst
      = some (.ok 0) := by decide
  refine ⟨by decide, hzero, fun hagree => ?_⟩
  obtain ⟨fuel, s, hrun⟩ := hagree true
  obtain ⟨r, hthree, hr⟩ := Option.map_eq_some_iff.mp hzero
  have hsame := (pingAll_mono (le_max_left fuel 3) hrun).symm.trans
    (pingAll_mono (le_max_right fuel 3) hthree)
  rw [← Option.some.inj hsame] at hr
  exact absurd (Except.ok.inj hr) (by decide)

end ChiNettest
