import ChiNettest.Bench.Shutdown

/-!
# Bench/Registration — the sleep orders `ServerInit`, not the registrations after it

`RpcPing` and `RpcTaskSubmit` are registered by the constructor of `TestRunner`, after the sleep
that is to bring all nodes up.  A node that wakes late has not registered them when node 1's first
call arrives, and is still to register them when node 1 stops it.

`InTime` is what holds as long as node 1 issues no test call before its target has registered the
RPC and stops no node before its constructor is finished; in a run that does neither, calls and
registrations are in time (`registersInTime_of_issuesInTime`).
-/

namespace ChiNettest

/-- **A call arrives, and a registration is made, in time**: a test call at a node that has
registered the RPC, a registration on a server engine that has not been finalized. -/
def RegistersInTime (s : System) : Action → Prop
  | .deliver i => ∀ call ∈ s.calls[i]?, call.rpc ≠ .stopDaemon →
      call.rpc ∈ (s.nodes call.target).registered
  | .advance k => (s.nodes k).stage.registersNext → (s.nodes k).server ≠ .finalized
  | .main | .handle _ | .receive _ | .exit => True

instance (s : System) : DecidablePred (RegistersInTime s)
  | .deliver i => inferInstanceAs (Decidable (∀ call ∈ s.calls[i]?, _))
  | .advance _ => inferInstanceAs (Decidable (_ → _))
  | .main | .handle _ | .receive _ | .exit => inferInstanceAs (Decidable True)

/-- The call node 1 is about to issue, its client engine being live. -/
def System.nextCall (s : System) : Option (ℕ × RpcName) :=
  if (s.nodes 1).client = .live then (s.main.bind List.head?).bind Instr.issued else none

/-- **Node 1 issues a call in time**: a test call to a node that has registered the RPC, an
`RpcStopDaemon` to a node whose constructor is finished. -/
def IssuesInTime (s : System) : Action → Prop
  | .main => ∀ key ∈ s.nextCall, if key.2 = .stopDaemon then (s.nodes key.1).stage = .constructed
      else key.2 ∈ (s.nodes key.1).registered
  | .advance _ | .deliver _ | .handle _ | .receive _ | .exit => True

instance (s : System) : DecidablePred (IssuesInTime s)
  | .main => inferInstanceAs (Decidable (∀ key ∈ s.nextCall, _))
  | .advance _ | .deliver _ | .handle _ | .receive _ | .exit => inferInstanceAs (Decidable True)

/-- Every call issued was issued in time, and no server engine is finalized before the constructor
of its node is finished. -/
structure InTime (s : System) : Prop where
  registered : ∀ key ∈ s.calls.map RpcCall.key, key.2 ≠ .stopDaemon →
    key.2 ∈ (s.nodes key.1).registered
  constructed : ∀ key ∈ s.calls.map RpcCall.key, key.2 = .stopDaemon →
    (s.nodes key.1).stage = .constructed
  finalized : ∀ k, (s.nodes k).server = .finalized → (s.nodes k).stage = .constructed

section Steps

variable {n : ℕ} {s s' : System}

/-- What a step of `main` of a node leaves: it is not past its constructor, keeps what it has
registered and finalizes nothing. -/
theorem advance_spec {node node' : NodeState} {sleepOver : Bool}
    (h : node.advance sleepOver = some node') :
    node.stage ≠ .constructed ∧ node.registered ⊆ node'.registered ∧
      (node'.server = .finalized → node.server = .finalized) := by
  cases advances_of_advance h with
  | makeServer => exact ⟨by simp, List.Subset.refl _, by simp⟩
  | registerStop => exact ⟨by simp, List.subset_cons_self _ _, id⟩
  | makeClient => exact ⟨by simp, List.Subset.refl _, id⟩
  | wake _ => exact ⟨by simp, List.Subset.refl _, id⟩
  | registerPing _ => exact ⟨by simp, List.subset_cons_self _ _, id⟩
  | registerTaskSubmit _ => exact ⟨by simp, List.subset_cons_self _ _, id⟩
  | abort hstage =>
    refine ⟨fun hconstructed => ?_, List.Subset.refl _, id⟩
    rcases hstage with rfl | rfl <;> cases hconstructed

/-- **Nodes only grow**: a step unregisters nothing and leaves a finished constructor finished. -/
theorem nodes_moves {a : Action} (hmoves : Moves n s a s') (k : ℕ) :
    (s.nodes k).registered ⊆ (s'.nodes k).registered ∧
      ((s.nodes k).stage = .constructed → (s'.nodes k).stage = .constructed) := by
  have hnode := hmoves.node k
  generalize s'.nodes k = node at hnode
  cases hnode with
  | same => exact ⟨List.Subset.refl _, id⟩
  | advance hadvance =>
    obtain ⟨hstage, hregistered, -⟩ := advance_spec hadvance
    exact ⟨hregistered, fun h => absurd h hstage⟩
  | finalizeClient _ _ _ => exact ⟨List.Subset.refl _, id⟩
  | finalizeServer _ _ _ => exact ⟨List.Subset.refl _, id⟩

/-- **A server engine is finalized by the handler of a call that stops its node.** -/
theorem server_moves {a : Action} (hmoves : Moves n s a s') {k : ℕ}
    (hserver : (s'.nodes k).server = .finalized) :
    (s.nodes k).server = .finalized ∨ (k, RpcName.stopDaemon) ∈ s.calls.map RpcCall.key := by
  have hnode := hmoves.node k
  generalize s'.nodes k = node at hnode hserver
  cases hnode with
  | same => exact Or.inl hserver
  | advance hadvance => exact Or.inl ((advance_spec hadvance).2.2 hserver)
  | finalizeClient _ _ _ => exact Or.inl hserver
  | finalizeServer hcall hkey _ =>
    exact Or.inr (List.mem_map.mpr ⟨_, List.mem_of_getElem? hcall, hkey⟩)

/-- The calls a step leaves: those there were, and the one it issues. -/
theorem keys_moves {a : Action} (hmoves : Moves n s a s') :
    s'.calls.map RpcCall.key = s.calls.map RpcCall.key ∨
      ∃ key ∈ s.nextCall, a = .main ∧
        s'.calls.map RpcCall.key = s.calls.map RpcCall.key ++ [key] := by
  rcases eq_or_ne a .main with rfl | ha
  · cases hmoves with
    | @issue target rpc _ _ hmain hlive =>
      have hnext : s.nextCall = some (target, rpc) := by
        rw [System.nextCall, if_pos hlive, hmain]
        rfl
      exact Or.inr ⟨_, hnext, rfl, List.map_append⟩
    | collect _ _ => exact Or.inl rfl
    | raise _ _ => exact Or.inl rfl
    | misuse _ _ => exact Or.inl rfl
  · exact Or.inl (hmoves.frame ha).1

/-- **Calls issued in time stay in time.** -/
theorem InTime.moves {a : Action} (h : InTime s) (ha : IssuesInTime s a)
    (hmoves : Moves n s a s') : InTime s' := by
  have hnodes := nodes_moves hmoves
  have hissued : ∀ key ∈ s'.calls.map RpcCall.key, if key.2 = .stopDaemon
      then (s.nodes key.1).stage = .constructed else key.2 ∈ (s.nodes key.1).registered := by
    have hold : ∀ key ∈ s.calls.map RpcCall.key, if key.2 = .stopDaemon
        then (s.nodes key.1).stage = .constructed else key.2 ∈ (s.nodes key.1).registered := by
      intro key hkey
      split
      · exact h.constructed key hkey ‹_›
      · exact h.registered key hkey ‹_›
    rcases keys_moves hmoves with hsame | ⟨key, hnext, rfl, hnew⟩
    · rwa [hsame]
    · rw [hnew]
      intro key' hkey'
      rcases List.mem_append.mp hkey' with hkey' | hkey'
      · exact hold key' hkey'
      · obtain rfl := List.mem_singleton.mp hkey'
        exact ha key' hnext
  refine ⟨fun key hkey hrpc => ?_, fun key hkey hrpc => ?_, fun k hserver => ?_⟩
  · have hreg := hissued key hkey
    rw [if_neg hrpc] at hreg
    exact (hnodes key.1).1 hreg
  · have hstage := hissued key hkey
    rw [if_pos hrpc] at hstage
    exact (hnodes key.1).2 hstage
  · rcases server_moves hmoves hserver with hfinal | hstop
    · exact (hnodes k).2 (h.finalized k hfinal)
    · exact (hnodes k).2 (h.constructed _ hstop rfl)

/-- **What was issued in time arrives in time**, and what is still to be registered is registered
in time. -/
theorem InTime.registersInTime (h : InTime s) (a : Action) : RegistersInTime s a := by
  cases a with
  | deliver i =>
    intro call hcall hrpc
    exact h.registered call.key (List.mem_map_of_mem (List.mem_of_getElem? hcall)) hrpc
  | advance k =>
    intro hnext hserver
    rw [h.finalized k hserver] at hnext
    exact absurd hnext Bool.false_ne_true
  | main => trivial
  | handle i => trivial
  | receive i => trivial
  | exit => trivial

/-- **What node 1 issues in time goes right**, from any state in which everything is in time. -/
theorem InTime.everyStep (h : InTime s) {run : List Action}
    (hrun : EveryStep (step n) IssuesInTime s run) : EveryStep (step n) RegistersInTime s run := by
  have hintime : EveryState (step n) InTime s run :=
    everyState_of_everyStep (fun _ _ _ hs ha hstep => hs.moves ha (moves_of_step hstep)) h hrun
  exact everyStep_of_everyState (fun _ a _ hs _ => hs.registersInTime a) hintime

end Steps

theorem inTime_initial (test : String) (n reps : ℕ) : InTime (initial test n reps) where
  registered _ hkey := absurd hkey List.not_mem_nil
  constructed _ hkey := absurd hkey List.not_mem_nil
  finalized _ hserver := absurd hserver nofun

/-- **When registration precedes use**: in every run in which node 1 issues each call in time, every
call arrives in time and every registration is made in time.  Nothing in the program makes node 1
wait for the constructors of the others. -/
theorem registersInTime_of_issuesInTime (test : String) (n reps : ℕ) (run : List Action)
    (hrun : EveryStep (step n) IssuesInTime (initial test n reps) run) :
    EveryStep (step n) RegistersInTime (initial test n reps) run :=
  (inTime_initial test n reps).everyStep hrun

/-- Two nodes that both finish their constructors before node 1 pings and stops them. -/
def timelyRun : List Action :=
  advanceAll 2 ++ advanceAll 2 ++ syncRound 0 ++ syncRound 1 ++
    [.main, .main, .deliver 3, .handle 3, .receive 3, .deliver 2, .handle 2, .receive 2, .main]

theorem registersInTime_of_issuesInTime_timelyRun :
    EveryStep (step 2) RegistersInTime (initial "ping" 2 1) timelyRun :=
  registersInTime_of_issuesInTime "ping" 2 1 timelyRun (by decide)

/-- Two nodes, the second of which oversleeps: node 1 pings both, the second in vain, and stops
both; then the second wakes and goes to register `RpcPing`. -/
def oversleptRun : List Action :=
  advanceAll 2 ++ [.advance 1, .advance 1, .advance 1] ++ syncRound 0 ++
    [.main, .deliver 1, .receive 1, .main, .main, .main] ++
    [.deliver 3, .handle 3, .handle 3, .handle 3, .advance 2, .advance 2]

/-- **A ping arrives at a node that has not registered it**, and the node goes to register it on a
server engine that has been finalized. -/
theorem not_registersInTime_oversleptRun :
    (exec (step 2) (initial "ping" 2 1) oversleptRun).map
        (fun s => ((s.calls[1]?).map RpcCall.handler, s.nodes 2))
      = some (some .rejected, ⟨.aborted, .finalized, .finalized, [.stopDaemon]⟩) ∧
    ¬ EveryStep (step 2) RegistersInTime (initial "ping" 2 1) oversleptRun := by
  decide

end ChiNettest
