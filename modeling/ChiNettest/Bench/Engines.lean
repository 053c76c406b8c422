import ChiNettest.Bench.Oversleep

/-!
# Bench/Engines — what the handlers of `RpcStopDaemon` find, and what they leave

`StopThisDaemon` dereferences both engines of its node, so it relies on their being there and on
nobody having finalized them.  Nothing in the program says so at the place: it follows from the
sleep, which ends after every client engine is made, and from `StopAllDaemons`, which calls each
node once.

`EnginesMatch` states it of every state of a run: an engine is finalized exactly if the handler of
the one `RpcStopDaemon` call to its node has got that far, and no such call is rejected
(`engines_everyState`).  So every `finalize` of a run finds a live engine
(`OnCourse.finalizesLive`).
-/

namespace ChiNettest

/-! ## Handlers and engines -/

/-- A call of `RpcStopDaemon` to a node, its handler past `client_engine_->finalize()`. -/
def RpcCall.FinalizedClient (k : ℕ) (call : RpcCall) : Prop :=
  call.key = (k, .stopDaemon) ∧
    (call.handler = .clientFinalized ∨ call.handler = .serverFinalized)

/-- A call of `RpcStopDaemon` to a node, its handler past `server_engine_->finalize()`. -/
def RpcCall.FinalizedServer (k : ℕ) (call : RpcCall) : Prop :=
  call.key = (k, .stopDaemon) ∧ call.handler = .serverFinalized

/-- A handler has got to no `finalize`. -/
def Handler.Early (handler : Handler) : Prop :=
  handler ≠ .clientFinalized ∧ handler ≠ .serverFinalized

/-- What a handler can have come to: that of `RpcStopDaemon` is not rejected, and no other gets to a
`finalize`. -/
def RpcCall.Fits (call : RpcCall) : Prop :=
  (call.rpc = .stopDaemon → call.handler ≠ .rejected) ∧
    (call.rpc ≠ .stopDaemon → call.handler.Early)

/-- **The engines of the nodes are as the handlers have left them**: finalized exactly by the
handler of a call to the node; a node that has finished `ThalliumRpc::ServerInit` has a client
engine, and before a call is issued every node has. -/
structure EnginesMatch (n : ℕ) (s : System) : Prop where
  client : ∀ k, (s.nodes k).client = .finalized ↔ ∃ call ∈ s.calls, call.FinalizedClient k
  server : ∀ k, (s.nodes k).server = .finalized ↔ ∃ call ∈ s.calls, call.FinalizedServer k
  fits : ∀ call ∈ s.calls, call.Fits
  clientMade : ∀ k, (s.nodes k).stage.serverInitDone → (s.nodes k).client ≠ .absent
  issuedAfter : s.calls ≠ [] → s.sleepOver n

section Calls

variable {s : System} {i : ℕ} {call call' : RpcCall} {P : RpcCall → Prop}

/-- A call replaced by one that has the same property changes nothing about it. -/
theorem exists_mem_setCall_congr (hcall : s.calls[i]? = some call) (hP : P call' ↔ P call) :
    (∃ c ∈ (s.setCall i call').calls, P c) ↔ ∃ c ∈ s.calls, P c := by
  obtain ⟨hi, hget⟩ := List.getElem?_eq_some_iff.mp hcall
  constructor
  · rintro ⟨c, hc, hPc⟩
    rcases List.mem_or_eq_of_mem_set hc with hc | rfl
    · exact ⟨c, hc, hPc⟩
    · exact ⟨call, List.mem_of_getElem? hcall, hP.mp hPc⟩
  · rintro ⟨c, hc, hPc⟩
    obtain ⟨j, hj⟩ := List.mem_iff_getElem?.mp hc
    rcases eq_or_ne i j with rfl | hij
    · obtain rfl := Option.some.inj (hcall.symm.trans hj)
      exact ⟨call', List.mem_of_getElem? (System.getElem?_setCall hcall), hP.mpr hPc⟩
    · exact ⟨c, List.mem_of_getElem? ((List.getElem?_set_ne hij).trans hj), hPc⟩

/-- A call replaced is there. -/
theorem mem_setCall (hcall : s.calls[i]? = some call) : call' ∈ (s.setCall i call').calls :=
  List.mem_of_getElem? (System.getElem?_setCall hcall)

theorem setCall_ne_nil (h : (s.setCall i call').calls ≠ []) : s.calls ≠ [] := by
  rintro hnil
  rw [System.setCall, hnil] at h
  exact h rfl

end Calls

/-! ## One step -/

section Steps

variable {test : String} {n reps : ℕ} {s s' : System} {past left : List Instr}

/-- **A node is stopped by one call.** -/
theorem stop_unique (h : Progress (benchProgram test n reps) s past left) {i j : ℕ}
    {call call' : RpcCall} (hi : s.calls[i]? = some call) (hj : s.calls[j]? = some call') {k : ℕ}
    (hkey : call.key = (k, .stopDaemon)) (hkey' : call'.key = (k, .stopDaemon)) : i = j := by
  have hplace : ∀ {m : ℕ} {c : RpcCall}, s.calls[m]? = some c → c.key = (k, .stopDaemon) →
      1 ≤ k ∧ k ≤ n ∧ m = (issuesOf (testProgram test n reps)).length + (k - 1) := by
    intro m c hm hc
    refine getElem?_issuesOf_benchProgram.mp (h.getElem?_issuesOf ?_)
    rw [List.getElem?_map, hm, Option.map_some, hc]
  exact (hplace hi hkey).2.2.trans (hplace hj hkey').2.2.symm

/-- The node of an `RpcStopDaemon` call is one of the `n`. -/
theorem range_of_stop (h : Progress (benchProgram test n reps) s past left) {call : RpcCall}
    (hcall : call ∈ s.calls) {k : ℕ} (hkey : call.key = (k, .stopDaemon)) : 1 ≤ k ∧ k ≤ n := by
  obtain ⟨i, hi⟩ := List.mem_iff_getElem?.mp hcall
  have hplace : (s.calls.map RpcCall.key)[i]? = some (k, .stopDaemon) := by
    rw [List.getElem?_map, hi, Option.map_some, hkey]
  obtain ⟨hk, hkn, -⟩ := getElem?_issuesOf_benchProgram.mp (h.getElem?_issuesOf hplace)
  exact ⟨hk, hkn⟩

/-- A node that has been stopped has finished `ThalliumRpc::ServerInit`. -/
theorem EnginesMatch.serverInitDone (h : EnginesMatch n s)
    (hprogress : Progress (benchProgram test n reps) s past left) {call : RpcCall}
    (hcall : call ∈ s.calls) {k : ℕ} (hkey : call.key = (k, .stopDaemon)) :
    (s.nodes k).stage.serverInitDone := by
  obtain ⟨hk, hkn⟩ := range_of_stop hprogress hcall hkey
  exact serverInitDone_of_sleepOver (h.issuedAfter (List.ne_nil_of_mem hcall)) hk hkn

/-- What a step of `main` of a node does to its engines, a finalized one being past
`ThalliumRpc::ServerInit`: it finalizes none, and replaces no finalized one. -/
theorem engines_advance {node node' : NodeState} {sleepOver : Bool}
    (h : node.advance sleepOver = some node')
    (hclient : node.client = .finalized → node.stage.serverInitDone)
    (hserver : node.server = .finalized → node.stage.serverInitDone) :
    (node'.client = .finalized ↔ node.client = .finalized) ∧
      (node'.server = .finalized ↔ node.server = .finalized) ∧
      (node'.stage.serverInitDone → node'.client = .absent →
        node.stage.serverInitDone ∧ node.client = .absent) := by
  cases advances_of_advance h with
  | makeServer =>
    exact ⟨Iff.rfl, iff_of_false nofun fun hs => Bool.false_ne_true (hserver hs),
      fun hdone => absurd hdone Bool.false_ne_true⟩
  | registerStop => exact ⟨Iff.rfl, Iff.rfl, fun hdone => absurd hdone Bool.false_ne_true⟩
  | makeClient =>
    exact ⟨iff_of_false nofun fun hc => Bool.false_ne_true (hclient hc), Iff.rfl, fun _ => nofun⟩
  | wake _ => exact ⟨Iff.rfl, Iff.rfl, fun _ habsent => ⟨rfl, habsent⟩⟩
  | registerPing _ => exact ⟨Iff.rfl, Iff.rfl, fun _ habsent => ⟨rfl, habsent⟩⟩
  | registerTaskSubmit _ => exact ⟨Iff.rfl, Iff.rfl, fun _ habsent => ⟨rfl, habsent⟩⟩
  | abort _ => exact ⟨Iff.rfl, Iff.rfl, fun _ habsent => ⟨hserver rfl, habsent⟩⟩

theorem EnginesMatch.advance (h : EnginesMatch n s)
    (hprogress : Progress (benchProgram test n reps) s past left) {k : ℕ} {node : NodeState}
    (hadvance : (s.nodes k).advance (s.sleepOver n) = some node) :
    EnginesMatch n (s.setNode k node) := by
  have hclient : (s.nodes k).client = .finalized → (s.nodes k).stage.serverInitDone := by
    intro hc
    obtain ⟨call, hcall, hkey, -⟩ := (h.client k).mp hc
    exact h.serverInitDone hprogress hcall hkey
  have hserver : (s.nodes k).server = .finalized → (s.nodes k).stage.serverInitDone := by
    intro hs
    obtain ⟨call, hcall, hkey, -⟩ := (h.server k).mp hs
    exact h.serverInitDone hprogress hcall hkey
  obtain ⟨hsameClient, hsameServer, hmade⟩ := engines_advance hadvance hclient hserver
  have hmoves : Moves n s (.advance k) (s.setNode k node) := .advance hadvance
  refine ⟨fun j => ?_, fun j => ?_, h.fits, fun j => ?_, fun hne =>
    sleepOver_moves hmoves (h.issuedAfter hne)⟩
  · rcases eq_or_ne j k with rfl | hj
    · rw [System.nodes_setNode_self, hsameClient]
      exact h.client j
    · rw [System.nodes_setNode_of_ne _ hj]
      exact h.client j
  · rcases eq_or_ne j k with rfl | hj
    · rw [System.nodes_setNode_self, hsameServer]
      exact h.server j
    · rw [System.nodes_setNode_of_ne _ hj]
      exact h.server j
  · rcases eq_or_ne j k with rfl | hj
    · rw [System.nodes_setNode_self]
      intro hdone habsent
      obtain ⟨hdone, habsent⟩ := hmade hdone habsent
      exact h.clientMade j hdone habsent
    · rw [System.nodes_setNode_of_ne _ hj]
      exact h.clientMade j

/-- **An `RpcStopDaemon` call that arrives is accepted**: its node has registered it before the
sleep and nobody else stops the node. -/
theorem EnginesMatch.arrival_stop (h : EnginesMatch n s) (hunderway : Underway n s)
    (hprogress : Progress (benchProgram test n reps) s past left) {i : ℕ} {call : RpcCall}
    (hcall : s.calls[i]? = some call) (hsent : call.handler = .sent)
    (hrpc : call.rpc = .stopDaemon) : s.arrival call = .running := by
  have hmem : call ∈ s.calls := List.mem_of_getElem? hcall
  have hkey : call.key = (call.target, .stopDaemon) := congrArg (Prod.mk call.target) hrpc
  have hdone := h.serverInitDone hprogress hmem hkey
  have hboot : (s.nodes call.target).stage ≠ .boot := fun hstage => by
    simp [hstage, Stage.serverInitDone] at hdone
  have hup : (s.nodes call.target).stage ≠ .engineUp := fun hstage => by
    simp [hstage, Stage.serverInitDone] at hdone
  have hlive : (s.nodes call.target).server = .live := by
    cases hserver : (s.nodes call.target).server with
    | absent => exact absurd hserver ((hunderway.equipped _).server hboot)
    | live => rfl
    | finalized =>
      obtain ⟨call', hmem', hkey', hfinal⟩ := (h.server _).mp hserver
      obtain ⟨j, hj⟩ := List.mem_iff_getElem?.mp hmem'
      obtain rfl := stop_unique hprogress hcall hj hkey hkey'
      obtain rfl := Option.some.inj (hcall.symm.trans hj)
      exact absurd (hsent.symm.trans hfinal) (by simp)
  rw [System.arrival, if_pos ⟨hlive, hrpc ▸ (hunderway.equipped _).registered hboot hup⟩]

/-- A step of a call that finalizes nothing. -/
theorem EnginesMatch.setCall (h : EnginesMatch n s) {i : ℕ} {call call' : RpcCall}
    (hcall : s.calls[i]? = some call) (hclient : ∀ k, call'.FinalizedClient k ↔
      call.FinalizedClient k) (hserver : ∀ k, call'.FinalizedServer k ↔ call.FinalizedServer k)
    (hfits : call'.Fits) : EnginesMatch n (s.setCall i call') where
  client k := (h.client k).trans (exists_mem_setCall_congr hcall (hclient k)).symm
  server k := (h.server k).trans (exists_mem_setCall_congr hcall (hserver k)).symm
  fits c hc := by
    rcases List.mem_or_eq_of_mem_set hc with hc | rfl
    · exact h.fits c hc
    · exact hfits
  clientMade := h.clientMade
  issuedAfter hne := h.issuedAfter (setCall_ne_nil hne)

/-- A step between two points before the first `finalize`. -/
theorem EnginesMatch.setCall_early (h : EnginesMatch n s) {i : ℕ} {call call' : RpcCall}
    (hcall : s.calls[i]? = some call) (hearly : call.handler.Early)
    (hearly' : call'.handler.Early)
    (haccepted : call'.rpc = .stopDaemon → call'.handler ≠ .rejected) :
    EnginesMatch n (s.setCall i call') := by
  have hnone : ∀ {c : RpcCall}, c.handler.Early → ∀ k,
      ¬ c.FinalizedClient k ∧ ¬ c.FinalizedServer k := by
    rintro c ⟨hclient, hserver⟩ k
    exact ⟨fun hc => hc.2.elim hclient hserver, fun hc => hserver hc.2⟩
  exact h.setCall hcall
    (fun k => iff_of_false (hnone hearly' k).1 (hnone hearly k).1)
    (fun k => iff_of_false (hnone hearly' k).2 (hnone hearly k).2)
    ⟨haccepted, fun _ => hearly'⟩

/-- **The handler finalizes the client engine of its node.** -/
theorem EnginesMatch.finalizeClient (h : EnginesMatch n s) {i : ℕ} {call : RpcCall}
    (hcall : s.calls[i]? = some call) (hhandler : call.handler = .responded)
    (hrpc : call.rpc = .stopDaemon) :
    EnginesMatch n ((s.setCall i { call with handler := .clientFinalized }).setNode call.target
      { s.nodes call.target with client := .finalized }) where
  client k := by
    rcases eq_or_ne k call.target with rfl | hk
    · rw [System.nodes_setNode_self]
      exact iff_of_true rfl
        ⟨_, mem_setCall hcall, congrArg (Prod.mk call.target) hrpc, Or.inl rfl⟩
    · rw [System.nodes_setNode_of_ne _ hk]
      refine (h.client k).trans (exists_mem_setCall_congr hcall ?_).symm
      exact iff_of_false (fun hc => hk (Prod.mk.inj hc.1).1.symm)
        (fun hc => hk (Prod.mk.inj hc.1).1.symm)
  server k := by
    have hsame : ((s.setNode call.target
        { s.nodes call.target with client := .finalized }).nodes k).server
        = (s.nodes k).server := by
      rcases eq_or_ne k call.target with rfl | hk
      · rw [System.nodes_setNode_self]
      · rw [System.nodes_setNode_of_ne _ hk]
    refine (iff_of_eq (congrArg (· = Engine.finalized) hsame)).trans ((h.server k).trans
      (exists_mem_setCall_congr hcall ?_).symm)
    exact iff_of_false (fun hc => absurd hc.2 (by simp))
      (fun hc => absurd (hhandler.symm.trans hc.2) (by simp))
  fits c hc := by
    rcases List.mem_or_eq_of_mem_set hc with hc | rfl
    · exact h.fits c hc
    · exact ⟨fun _ => by simp, fun hne => absurd hrpc hne⟩
  clientMade k := by
    rcases eq_or_ne k call.target with rfl | hk
    · rw [System.nodes_setNode_self]
      exact fun _ => nofun
    · rw [System.nodes_setNode_of_ne _ hk]
      exact h.clientMade k
  issuedAfter hne := sleepOver_moves (.finalizeClient hcall hhandler hrpc)
    (h.issuedAfter (setCall_ne_nil hne))

/-- **The handler finalizes the server engine of its node.** -/
theorem EnginesMatch.finalizeServer (h : EnginesMatch n s) {i : ℕ} {call : RpcCall}
    (hcall : s.calls[i]? = some call) (hhandler : call.handler = .clientFinalized)
    (hrpc : call.rpc = .stopDaemon) :
    EnginesMatch n ((s.setCall i { call with handler := .serverFinalized }).setNode call.target
      { s.nodes call.target with server := .finalized }) where
  client k := by
    have hsame : ((s.setNode call.target
        { s.nodes call.target with server := .finalized }).nodes k).client
        = (s.nodes k).client := by
      rcases eq_or_ne k call.target with rfl | hk
      · rw [System.nodes_setNode_self]
      · rw [System.nodes_setNode_of_ne _ hk]
    refine (iff_of_eq (congrArg (· = Engine.finalized) hsame)).trans ((h.client k).trans
      (exists_mem_setCall_congr hcall ?_).symm)
    exact ⟨fun hc => ⟨hc.1, Or.inl hhandler⟩, fun hc => ⟨hc.1, Or.inr rfl⟩⟩
  server k := by
    rcases eq_or_ne k call.target with rfl | hk
    · rw [System.nodes_setNode_self]
      exact iff_of_true rfl ⟨_, mem_setCall hcall, congrArg (Prod.mk call.target) hrpc, rfl⟩
    · rw [System.nodes_setNode_of_ne _ hk]
      refine (h.server k).trans (exists_mem_setCall_congr hcall ?_).symm
      exact iff_of_false (fun hc => hk (Prod.mk.inj hc.1).1.symm)
        (fun hc => hk (Prod.mk.inj hc.1).1.symm)
  fits c hc := by
    rcases List.mem_or_eq_of_mem_set hc with hc | rfl
    · exact h.fits c hc
    · exact ⟨fun _ => by simp, fun hne => absurd hrpc hne⟩
  clientMade k := by
    rcases eq_or_ne k call.target with rfl | hk
    · rw [System.nodes_setNode_self]
      exact h.clientMade call.target
    · rw [System.nodes_setNode_of_ne _ hk]
      exact h.clientMade k
  issuedAfter hne := sleepOver_moves (.finalizeServer hcall hhandler hrpc)
    (h.issuedAfter (setCall_ne_nil hne))

/-- **A call issued has finalized nothing**, and is issued after the sleep. -/
theorem EnginesMatch.issue (h : EnginesMatch n s) (hover : s.sleepOver n) (target : ℕ)
    (rpc : RpcName) (rest : List Instr) :
    EnginesMatch n
      { s with calls := s.calls ++ [{ target := target, rpc := rpc }], main := some rest } := by
  have hmem : ∀ {P : RpcCall → Prop}, ¬ P { target := target, rpc := rpc } →
      ((∃ c ∈ s.calls ++ [{ target := target, rpc := rpc }], P c) ↔ ∃ c ∈ s.calls, P c) := by
    intro P hnot
    constructor
    · rintro ⟨c, hc, hP⟩
      rcases List.mem_append.mp hc with hc | hc
      · exact ⟨c, hc, hP⟩
      · exact absurd (List.mem_singleton.mp hc ▸ hP) hnot
    · rintro ⟨c, hc, hP⟩
      exact ⟨c, List.mem_append_left _ hc, hP⟩
  refine ⟨fun k => (h.client k).trans (hmem fun hc => ?_).symm,
    fun k => (h.server k).trans (hmem fun hc => absurd hc.2 (by simp)).symm, fun c hc => ?_,
    h.clientMade, fun _ => hover⟩
  · rcases hc.2 with hfinal | hfinal <;> exact absurd hfinal (by simp)
  · rcases List.mem_append.mp hc with hc | hc
    · exact h.fits c hc
    · obtain rfl := List.mem_singleton.mp hc
      exact ⟨fun _ => by simp, fun _ => by simp [Handler.Early]⟩

/-- **A step leaves the engines as the handlers have left them.** -/
theorem EnginesMatch.step {a : Action} (h : EnginesMatch n s) (hunderway : Underway n s)
    (hprogress : Progress (benchProgram test n reps) s past left)
    (hstep : step n s a = some s') : EnginesMatch n s' := by
  cases hmoves : moves_of_step hstep with
  | advance hadvance => exact h.advance hprogress hadvance
  | issue hstage _ _ =>
    have hover : s.sleepOver n := hunderway.woken 1 (by rw [hstage]; rfl)
    exact h.issue hover _ _ _
  | collect _ _ => exact ⟨h.client, h.server, h.fits, h.clientMade, h.issuedAfter⟩
  | exit _ => exact ⟨h.client, h.server, h.fits, h.clientMade, h.issuedAfter⟩
  | raise _ _ => exact ⟨h.client, h.server, h.fits, h.clientMade, h.issuedAfter⟩
  | misuse _ _ => exact ⟨h.client, h.server, h.fits, h.clientMade, h.issuedAfter⟩
  | @deliver i call hcall hsent =>
    have hearly : call.handler.Early := by rw [hsent]; simp [Handler.Early]
    have hearly' : (s.arrival call).Early := by
      rw [System.arrival]
      split <;> simp [Handler.Early]
    refine h.setCall_early hcall hearly hearly' fun hrpc => ?_
    have haccepted := h.arrival_stop hunderway hprogress hcall hsent hrpc
    simp [haccepted]
  | @respond i call hcall hrunning =>
    have hearly : call.handler.Early := by rw [hrunning]; simp [Handler.Early]
    exact h.setCall_early hcall hearly (by simp [Handler.Early]) fun _ => by simp
  | finalizeClient hcall hhandler hrpc => exact h.finalizeClient hcall hhandler hrpc
  | finalizeServer hcall hhandler hrpc => exact h.finalizeServer hcall hhandler hrpc
  | @receive i call hcall _ =>
    exact h.setCall hcall (fun _ => Iff.rfl) (fun _ => Iff.rfl)
      (h.fits call (List.mem_of_getElem? hcall))

end Steps

/-! ## Every run -/

/-- A node past a registration of its constructor has registered the RPC. -/
structure Registers (node : NodeState) : Prop where
  ping : node.stage = .pingRegistered ∨ node.stage = .constructed → .ping ∈ node.registered
  taskSubmit : node.stage = .constructed → .taskSubmit ∈ node.registered

theorem Registers.advance {node node' : NodeState} {sleepOver : Bool} (h : Registers node)
    (hadvance : node.advance sleepOver = some node') : Registers node' := by
  cases advances_of_advance hadvance with
  | registerPing _ => exact ⟨fun _ => List.mem_cons_self, fun hstage => absurd hstage nofun⟩
  | registerTaskSubmit _ =>
    exact ⟨fun _ => List.mem_cons_of_mem _ (h.ping (Or.inl rfl)), fun _ => List.mem_cons_self⟩
  | _ => exact ⟨fun hstage => absurd hstage (by simp), fun hstage => absurd hstage nofun⟩

/-- What holds in every state of a run: where node 1 stands in its program, what the nodes have, and
what has become of the engines. -/
structure OnCourse (test : String) (n reps : ℕ) (s : System) : Prop where
  progress : ∃ past left, Progress (benchProgram test n reps) s past left
  underway : Underway n s
  registers : ∀ k, Registers (s.nodes k)
  engines : EnginesMatch n s

section OnCourse

variable {test : String} {n reps : ℕ} {s s' : System}

theorem OnCourse.step {a : Action} (h : OnCourse test n reps s)
    (hstep : ChiNettest.step n s a = some s') : OnCourse test n reps s' := by
  obtain ⟨past, left, hprogress⟩ := h.progress
  have hmoves := moves_of_step hstep
  refine ⟨progress_moves hprogress hmoves, h.underway.moves hmoves, fun k => ?_,
    h.engines.step h.underway hprogress hstep⟩
  have hnode := hmoves.node k
  generalize s'.nodes k = node at hnode
  cases hnode with
  | same => exact h.registers k
  | advance hadvance => exact (h.registers k).advance hadvance
  | finalizeClient _ _ _ => exact ⟨(h.registers k).ping, (h.registers k).taskSubmit⟩
  | finalizeServer _ _ _ => exact ⟨(h.registers k).ping, (h.registers k).taskSubmit⟩

theorem onCourse_initial (test : String) (n reps : ℕ) :
    OnCourse test n reps (initial test n reps) where
  progress := ⟨_, _, progress_initial test n reps⟩
  underway := underway_initial test n reps
  registers _ := ⟨fun hstage => absurd hstage (by simp [initial]),
    fun hstage => absurd hstage nofun⟩
  engines := {
    client := fun _ => iff_of_false nofun fun ⟨_, hcall, _⟩ => absurd hcall List.not_mem_nil
    server := fun _ => iff_of_false nofun fun ⟨_, hcall, _⟩ => absurd hcall List.not_mem_nil
    fits := fun _ hcall => absurd hcall List.not_mem_nil
    clientMade := fun _ hdone => absurd hdone Bool.false_ne_true
    issuedAfter := fun hne => absurd rfl hne }

/-- Where a run ends, everything is on course. -/
theorem onCourse_of_exec {run : List Action} (h : exec (ChiNettest.step n)
    (initial test n reps) run = some s) : OnCourse test n reps s :=
  invariant_of_exec (fun _ _ _ hs hstep => hs.step hstep) (onCourse_initial test n reps) h

/-- **A step that finalizes an engine finds it live.** -/
def FinalizesLive (s : System) : Action → Prop
  | .handle i => ∀ call ∈ s.calls[i]?, call.rpc = .stopDaemon →
      (call.handler = .responded → (s.nodes call.target).client = .live) ∧
      (call.handler = .clientFinalized → (s.nodes call.target).server = .live)
  | .advance _ | .main | .deliver _ | .receive _ | .exit => True

/-- **The handler of `RpcStopDaemon` finds its engines live**: nobody else has finalized them, and
they have been made. -/
theorem OnCourse.finalizesLive (h : OnCourse test n reps s) (a : Action) : FinalizesLive s a := by
  obtain ⟨past, left, hprogress⟩ := h.progress
  cases a with
  | advance | main | deliver | receive | exit => trivial
  | handle i =>
    intro call hcall hrpc
    have hmem : call ∈ s.calls := List.mem_of_getElem? hcall
    have hkey : call.key = (call.target, .stopDaemon) := congrArg (Prod.mk call.target) hrpc
    have hdone := h.engines.serverInitDone hprogress hmem hkey
    have hsame : ∀ {call' : RpcCall}, call' ∈ s.calls →
        call'.key = (call.target, .stopDaemon) → call' = call := by
      intro call' hmem' hkey'
      obtain ⟨j, hj⟩ := List.mem_iff_getElem?.mp hmem'
      obtain rfl := stop_unique hprogress hcall hj hkey hkey'
      exact Option.some.inj (hj.symm.trans hcall)
    constructor
    · intro hhandler
      cases hclient : (s.nodes call.target).client with
      | absent => exact absurd hclient (h.engines.clientMade _ hdone)
      | live => rfl
      | finalized =>
        obtain ⟨call', hmem', hkey', hfinal⟩ := (h.engines.client _).mp hclient
        rw [hsame hmem' hkey', hhandler] at hfinal
        exact absurd hfinal (by simp)
    · intro hhandler
      cases hserver : (s.nodes call.target).server with
      | absent =>
        have hboot : (s.nodes call.target).stage ≠ .boot := fun hstage => by
          simp [hstage, Stage.serverInitDone] at hdone
        exact absurd hserver ((h.underway.equipped _).server hboot)
      | live => rfl
      | finalized =>
        obtain ⟨call', hmem', hkey', hfinal⟩ := (h.engines.server _).mp hserver
        rw [hsame hmem' hkey', hhandler] at hfinal
        exact absurd hfinal (by simp)

end OnCourse

/-- **`StopThisDaemon` never dereferences a null engine and never finalizes one twice**, in any run:
in every state the engines are as the handlers have left them, and every handler that finalizes one
finds it live. -/
theorem engines_everyState (test : String) (n reps : ℕ) (run : List Action) :
    EveryState (step n) (EnginesMatch n) (initial test n reps) run ∧
      EveryStep (step n) FinalizesLive (initial test n reps) run := by
  have hrun : EveryState (step n) (OnCourse test n reps) (initial test n reps) run :=
    everyState_of_everyStep (C := fun _ _ => True) (fun _ _ _ hs _ hstep => hs.step hstep)
      (onCourse_initial test n reps) (everyStep_of_forall fun _ _ _ => trivial)
  exact ⟨hrun.mono fun _ h => h.engines,
    everyStep_of_everyState (fun _ a _ hs _ => hs.finalizesLive a) hrun⟩

end ChiNettest
