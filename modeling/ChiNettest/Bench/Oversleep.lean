import ChiNettest.Bench.Registration

/-!
# Bench/Oversleep — a call issued too early can always go wrong

`registersInTime_of_issuesInTime` asks of node 1 that it issues every call in time.  Nothing less
will do: after a test call to a node that has not registered the RPC the call may arrive at once,
and after an `RpcStopDaemon` to a node whose constructor is not finished its handler may run to the
end before the constructor goes on.  So node 1 issues in time exactly in the runs that stay in time
whatever the other parties do at any point of them (`issuesInTime_iff`).
-/

namespace ChiNettest

section Oversleep

variable {n : ℕ} {s s' : System}

/-! ## What the others can do -/

/-- **The others can make a call or a registration late**, node 1's program standing still. -/
def CanBeLate (n : ℕ) (s : System) : Prop :=
  ∃ later, (∀ a ∈ later, a ≠ .main) ∧ ¬ EveryStep (step n) RegistersInTime s later

theorem CanBeLate.of_step {a : Action} (h : step n s a = some s') (ha : a ≠ .main)
    (hlate : CanBeLate n s') : CanBeLate n s := by
  obtain ⟨later, hlater, hbad⟩ := hlate
  refine ⟨a :: later, fun b hb => ?_, fun hgood => hbad (hgood s' h).2⟩
  rcases List.mem_cons.mp hb with rfl | hb
  · exact ha
  · exact hlater b hb

theorem CanBeLate.of_late {a : Action} (h : step n s a = some s') (ha : a ≠ .main)
    (hbad : ¬ RegistersInTime s a) : CanBeLate n s := by
  refine ⟨[a], fun b hb => ?_, fun hgood => hbad (hgood s' h).1⟩
  obtain rfl := List.mem_singleton.mp hb
  exact ha

/-- A test call on its way to a node that has not registered the RPC can arrive there. -/
theorem canBeLate_of_call {i : ℕ} {call : RpcCall} (hcall : s.calls[i]? = some call)
    (hsent : call.handler = .sent) (hrunning : s.Running) (hrpc : call.rpc ≠ .stopDaemon)
    (hmissing : call.rpc ∉ (s.nodes call.target).registered) : CanBeLate n s := by
  have hstep : step n s (.deliver i)
      = some (s.setCall i { call with handler := s.arrival call }) := by
    rw [step, hcall]
    exact if_pos ⟨hsent, fun _ => hrunning⟩
  exact .of_late hstep (by simp) fun hgood => hmissing (hgood call hcall hrpc)

/-- **Node `k` oversleeps**: it is not node 1, all nodes have finished `ThalliumRpc::ServerInit`,
and its constructor is still to go on. -/
structure Oversleeps (n : ℕ) (s : System) (k : ℕ) : Prop where
  pos : 1 ≤ k
  le : k ≤ n
  ne : k ≠ 1
  sleepOver : s.sleepOver n
  started : (s.nodes k).stage.serverInitDone
  unfinished : (s.nodes k).stage ≠ .constructed
  there : (s.nodes k).stage ≠ .aborted

theorem sleepOver_congr (h : ∀ j, (s'.nodes j).stage = (s.nodes j).stage) :
    s'.sleepOver n = s.sleepOver n := by
  simp only [System.sleepOver, h]

/-- What leaves every `main` where it is leaves the node asleep. -/
theorem Oversleeps.congr {k : ℕ} (h : Oversleeps n s k)
    (hstage : ∀ j, (s'.nodes j).stage = (s.nodes j).stage) : Oversleeps n s' k where
  pos := h.pos
  le := h.le
  ne := h.ne
  sleepOver := (sleepOver_congr hstage).trans h.sleepOver
  started := hstage k ▸ h.started
  unfinished := hstage k ▸ h.unfinished
  there := hstage k ▸ h.there

theorem stage_setNode (s : System) (k : ℕ) (node : NodeState)
    (h : node.stage = (s.nodes k).stage) (j : ℕ) :
    ((s.setNode k node).nodes j).stage = (s.nodes j).stage := by
  rcases eq_or_ne j k with rfl | hj
  · rw [System.nodes_setNode_self, h]
  · rw [System.nodes_setNode_of_ne _ hj]

/-- A node that oversleeps can go on, and registers in its next step or the one after. -/
theorem Oversleeps.advance {k : ℕ} (h : Oversleeps n s k) :
    ∃ node, step n s (.advance k) = some (s.setNode k node) ∧
      ((s.nodes k).stage.registersNext ∨
        node = { s.nodes k with stage := .awake } ∧ (s.nodes k).stage = .asleep) := by
  have hin : 1 ≤ k ∧ k ≤ n := ⟨h.pos, h.le⟩
  have hstarted := h.started
  have hunfinished := h.unfinished
  have hthere := h.there
  have hsleep := h.sleepOver
  rw [step, if_pos hin, NodeState.advance]
  cases hstage : (s.nodes k).stage <;> rw [hstage] at hstarted hunfinished hthere
  case boot => exact absurd hstarted Bool.false_ne_true
  case engineUp => exact absurd hstarted Bool.false_ne_true
  case stopRegistered => exact absurd hstarted Bool.false_ne_true
  case asleep => exact ⟨_, by rw [if_pos hsleep]; rfl, Or.inr ⟨rfl, rfl⟩⟩
  case awake => exact ⟨_, rfl, Or.inl rfl⟩
  case pingRegistered => exact ⟨_, rfl, Or.inl rfl⟩
  case constructed => exact absurd rfl hunfinished
  case aborted => exact absurd rfl hthere

/-- Where its server engine is finalized, it registers too late. -/
theorem Oversleeps.canBeLate {k : ℕ} (h : Oversleeps n s k)
    (hserver : (s.nodes k).server = .finalized) : CanBeLate n s := by
  obtain ⟨node, hstep, hnext | ⟨rfl, hasleep⟩⟩ := h.advance
  · exact .of_late hstep nofun fun hgood => hgood hnext hserver
  · refine .of_step hstep nofun ?_
    have hin : 1 ≤ k ∧ k ≤ n := ⟨h.pos, h.le⟩
    have hagain : ∃ s', step n (s.setNode k { s.nodes k with stage := .awake }) (.advance k)
        = some s' := ⟨_, by rw [step, if_pos hin, System.nodes_setNode_self]; rfl⟩
    obtain ⟨s', hagain⟩ := hagain
    refine .of_late hagain nofun ?_
    rw [RegistersInTime, System.nodes_setNode_self]
    exact fun hgood => hgood rfl hserver

/-- The process of a node that oversleeps is there. -/
theorem Oversleeps.present {k : ℕ} (h : Oversleeps n s k) : s.Present k :=
  ⟨fun hone => absurd hone h.ne, h.there⟩

section Stop

variable {i k : ℕ} {received : Bool}

/-- A handler of `RpcStopDaemon` at a node that oversleeps goes on. -/
theorem Oversleeps.handle (h : Oversleeps n s k) {call : RpcCall}
    (hcall : s.calls[i]? = some call) (hkey : call.target = k) :
    step n s (.handle i) = s.runHandler i call := by
  rw [step, hcall]
  exact if_pos (hkey ▸ h.present)

theorem Oversleeps.canBeLate_of_clientFinalized (h : Oversleeps n s k)
    (hcall : s.calls[i]? = some ⟨k, .stopDaemon, .clientFinalized, received⟩) :
    CanBeLate n s := by
  refine .of_step (h.handle hcall rfl) nofun ?_
  have hsame := stage_setNode (s.setCall i ⟨k, .stopDaemon, .serverFinalized, received⟩) k
    { s.nodes k with server := .finalized } rfl
  exact (h.congr hsame).canBeLate (by rw [System.nodes_setNode_self])

theorem Oversleeps.canBeLate_of_responded (h : Oversleeps n s k)
    (hcall : s.calls[i]? = some ⟨k, .stopDaemon, .responded, received⟩) : CanBeLate n s := by
  refine .of_step (h.handle hcall rfl) nofun ?_
  have hsame := stage_setNode (s.setCall i ⟨k, .stopDaemon, .clientFinalized, received⟩) k
    { s.nodes k with client := .finalized } rfl
  exact (h.congr hsame).canBeLate_of_clientFinalized (System.getElem?_setCall hcall)

theorem Oversleeps.canBeLate_of_running (h : Oversleeps n s k)
    (hcall : s.calls[i]? = some ⟨k, .stopDaemon, .running, received⟩) : CanBeLate n s := by
  refine .of_step (h.handle hcall rfl) nofun ?_
  have hsame : Oversleeps n (s.setCall i ⟨k, .stopDaemon, .responded, received⟩) k :=
    h.congr fun _ => rfl
  exact hsame.canBeLate_of_responded (System.getElem?_setCall hcall)

/-- **An `RpcStopDaemon` on its way to a node that oversleeps** can be handled to the end before the
node registers. -/
theorem Oversleeps.canBeLate_of_sent (h : Oversleeps n s k)
    (hcall : s.calls[i]? = some ⟨k, .stopDaemon, .sent, received⟩)
    (hlive : (s.nodes k).server = .live) (hregistered : .stopDaemon ∈ (s.nodes k).registered) :
    CanBeLate n s := by
  have hstep : step n s (.deliver i)
      = some (s.setCall i ⟨k, .stopDaemon, .running, received⟩) := by
    rw [step, hcall]
    refine (if_pos ⟨rfl, h.present.1⟩).trans ?_
    rw [System.arrival, if_pos ⟨hlive, hregistered⟩]
  have hsame : Oversleeps n (s.setCall i ⟨k, .stopDaemon, .running, received⟩) k :=
    h.congr fun _ => rfl
  exact .of_step hstep (by simp) (hsame.canBeLate_of_running (System.getElem?_setCall hcall))

end Stop

/-! ## What holds throughout -/

/-- Whether `main` of a node is past the sleep. -/
def Stage.woken : Stage → Bool
  | .boot | .engineUp | .stopRegistered | .asleep => false
  | .awake | .pingRegistered | .constructed | .aborted => true

/-- A node has the engine it has made, and its registration of `RpcStopDaemon`; where a registration
has failed, that engine is finalized. -/
structure Equipped (node : NodeState) : Prop where
  server : node.stage ≠ .boot → node.server ≠ .absent
  registered : node.stage ≠ .boot → node.stage ≠ .engineUp → .stopDaemon ∈ node.registered
  aborted : node.stage = .aborted → node.server = .finalized

/-- What a step of `main` of a node keeps: a finished `ThalliumRpc::ServerInit`, what the node has,
and that it has slept for as long as the sleep lasts. -/
theorem lifecycle_advance {node node' : NodeState} {sleepOver : Bool}
    (h : node.advance sleepOver = some node') :
    (node.stage.serverInitDone → node'.stage.serverInitDone) ∧
      (Equipped node → Equipped node') ∧
      (node'.stage.woken → node.stage.woken ∨ sleepOver) := by
  have hkept : Equipped node → node.stage ≠ .boot → node.stage ≠ .engineUp →
      node.server ≠ .absent ∧ .stopDaemon ∈ node.registered :=
    fun he hboot hup => ⟨he.server hboot, he.registered hboot hup⟩
  cases advances_of_advance h with
  | makeServer => exact ⟨id, fun _ => ⟨by simp, fun _ hne => absurd rfl hne, by simp⟩, Or.inl⟩
  | registerStop =>
    exact ⟨id, fun he => ⟨fun _ => he.server (by simp), fun _ _ => List.mem_cons_self, by simp⟩,
      Or.inl⟩
  | makeClient =>
    refine ⟨fun _ => rfl, fun he => ?_, Or.inl⟩
    obtain ⟨hserver, hstop⟩ := hkept he (by simp) (by simp)
    exact ⟨fun _ => hserver, fun _ _ => hstop, by simp⟩
  | wake hover =>
    refine ⟨fun _ => rfl, fun he => ?_, fun _ => Or.inr hover⟩
    obtain ⟨hserver, hstop⟩ := hkept he (by simp) (by simp)
    exact ⟨fun _ => hserver, fun _ _ => hstop, by simp⟩
  | registerPing _ =>
    refine ⟨fun _ => rfl, fun he => ?_, fun _ => Or.inl rfl⟩
    obtain ⟨hserver, hstop⟩ := hkept he (by simp) (by simp)
    exact ⟨fun _ => hserver, fun _ _ => List.mem_cons_of_mem _ hstop, by simp⟩
  | registerTaskSubmit _ =>
    refine ⟨fun _ => rfl, fun he => ?_, fun _ => Or.inl rfl⟩
    obtain ⟨hserver, hstop⟩ := hkept he (by simp) (by simp)
    exact ⟨fun _ => hserver, fun _ _ => List.mem_cons_of_mem _ hstop, by simp⟩
  | abort hstage =>
    refine ⟨fun _ => rfl, fun he => ?_, fun _ => Or.inl (by rcases hstage with rfl | rfl <;> rfl)⟩
    obtain ⟨hserver, hstop⟩ := hkept he (by rcases hstage with rfl | rfl <;> simp)
      (by rcases hstage with rfl | rfl <;> simp)
    exact ⟨fun _ => hserver, fun _ _ => hstop, fun _ => rfl⟩

/-- **What holds of the nodes in every run**: no node wakes before the sleep is over, every node has
what it has made and registered, and a server engine that is finalized has been told to stop; node 1
calls nobody before its constructor is finished, and returns from `main` when its program is. -/
structure Underway (n : ℕ) (s : System) : Prop where
  woken : ∀ k, (s.nodes k).stage.woken → s.sleepOver n
  equipped : ∀ k, Equipped (s.nodes k)
  stopped : ∀ k, (s.nodes k).server = .finalized →
    (k, RpcName.stopDaemon) ∈ s.calls.map RpcCall.key
  caller : s.calls ≠ [] → (s.nodes 1).stage = .constructed
  exited : s.exited = true → s.main = some []

theorem serverInitDone_of_sleepOver (h : s.sleepOver n) {k : ℕ} (hk : 1 ≤ k) (hkn : k ≤ n) :
    (s.nodes k).stage.serverInitDone :=
  List.all_eq_true.mp h k (List.mem_range'_1.mpr ⟨hk, by omega⟩)

/-- The sleep stays over. -/
theorem sleepOver_moves {a : Action} (hmoves : Moves n s a s') (h : s.sleepOver n) :
    s'.sleepOver n := by
  refine List.all_eq_true.mpr fun k hk => ?_
  have hdone : (s.nodes k).stage.serverInitDone := List.all_eq_true.mp h k hk
  have hnode := hmoves.node k
  generalize s'.nodes k = node at hnode
  cases hnode with
  | same => exact hdone
  | advance hadvance => exact (lifecycle_advance hadvance).1 hdone
  | finalizeClient _ _ _ => exact hdone
  | finalizeServer _ _ _ => exact hdone

/-- Calls issued stay issued. -/
theorem mem_keys_moves {a : Action} (hmoves : Moves n s a s') {key : ℕ × RpcName}
    (h : key ∈ s.calls.map RpcCall.key) : key ∈ s'.calls.map RpcCall.key := by
  rcases keys_moves hmoves with hsame | ⟨_, _, _, hnew⟩
  · rwa [hsame]
  · rw [hnew]
    exact List.mem_append_left _ h

/-- Only a finished constructor lets node 1 issue its first call. -/
theorem caller_moves {a : Action} (hmoves : Moves n s a s')
    (h : s.calls ≠ [] → (s.nodes 1).stage = .constructed) (hcalls : s'.calls ≠ []) :
    (s'.nodes 1).stage = .constructed := by
  rcases eq_or_ne a .main with rfl | ha
  · cases hmoves with
    | issue hstage _ _ => exact hstage
    | collect | raise | misuse => exact h hcalls
  · obtain ⟨hkeys, -, -⟩ := hmoves.frame ha
    have hbefore : s.calls ≠ [] := fun hnil => by
      rw [hnil] at hkeys
      exact hcalls (List.map_eq_nil_iff.mp hkeys)
    exact (nodes_moves hmoves 1).2 (h hbefore)

/-- Only a finished program lets `main` of node 1 return, and nothing comes after that. -/
theorem exited_moves {a : Action} (hmoves : Moves n s a s')
    (h : s.exited = true → s.main = some []) (hexited : s'.exited = true) : s'.main = some [] := by
  have hover : ∀ {instr : Instr} {rest : List Instr}, s.main = some (instr :: rest) →
      s.exited ≠ true := fun hmain hexited => by
    rw [h hexited] at hmain
    cases hmain
  cases hmoves with
  | exit hmain => exact hmain
  | issue _ hmain _ => exact absurd hexited (hover hmain)
  | collect hmain _ => exact absurd hexited (hover hmain)
  | raise hmain _ => exact absurd hexited (hover hmain)
  | misuse hmain _ => exact absurd hexited (hover hmain)
  | _ => exact h hexited

/-- **A step keeps all of this.** -/
theorem Underway.moves {a : Action} (h : Underway n s) (hmoves : Moves n s a s') :
    Underway n s' := by
  have hover : s.sleepOver n → s'.sleepOver n := sleepOver_moves hmoves
  refine ⟨fun k hwoken => ?_, fun k => ?_, fun k hserver => ?_, caller_moves hmoves h.caller,
    exited_moves hmoves h.exited⟩
  · have hnode := hmoves.node k
    generalize s'.nodes k = node at hnode hwoken
    cases hnode with
    | same => exact hover (h.woken k hwoken)
    | advance hadvance =>
      exact hover (((lifecycle_advance hadvance).2.2 hwoken).elim (h.woken k) id)
    | finalizeClient _ _ _ => exact hover (h.woken k hwoken)
    | finalizeServer _ _ _ => exact hover (h.woken k hwoken)
  · have hnode := hmoves.node k
    generalize s'.nodes k = node at hnode
    cases hnode with
    | same => exact h.equipped k
    | advance hadvance => exact (lifecycle_advance hadvance).2.1 (h.equipped k)
    | finalizeClient _ _ _ =>
      exact ⟨(h.equipped k).server, (h.equipped k).registered, (h.equipped k).aborted⟩
    | finalizeServer _ _ _ =>
      exact ⟨fun _ => by simp, (h.equipped k).registered, fun _ => rfl⟩
  · rcases server_moves hmoves hserver with hfinal | hstop
    · exact mem_keys_moves hmoves (h.stopped k hfinal)
    · exact mem_keys_moves hmoves hstop

theorem underway_initial (test : String) (n reps : ℕ) : Underway n (initial test n reps) where
  woken _ hwoken := absurd hwoken Bool.false_ne_true
  equipped _ := ⟨fun hne => absurd rfl hne, fun hne => absurd rfl hne, by simp [initial]⟩
  stopped _ hserver := absurd hserver nofun
  caller hne := absurd rfl hne
  exited hexited := absurd hexited Bool.false_ne_true

/-! ## A call issued too early -/

/-- The call node 1 is about to issue is the next instruction of its program. -/
theorem main_of_nextCall {key : ℕ × RpcName} (h : key ∈ s.nextCall) :
    (s.nodes 1).client = .live ∧ ∃ rest, s.main = some (.issue key.1 key.2 :: rest) := by
  obtain ⟨hlive, hkey⟩ := Option.ite_none_right_eq_some.mp h
  obtain ⟨instr, hinstr, hissued⟩ := Option.bind_eq_some_iff.mp hkey
  obtain ⟨instrs, hmain, hhead⟩ := Option.bind_eq_some_iff.mp hinstr
  obtain ⟨rest, rfl⟩ := List.head?_eq_some_iff.mp hhead
  cases instr with
  | issue target rpc =>
    obtain rfl := Option.some.inj hissued
    exact ⟨hlive, rest, hmain⟩
  | wait call guard => exact absurd hissued nofun

/-- What is left where node 1 has issued it. -/
theorem step_main_issue {target : ℕ} {rpc : RpcName} {rest : List Instr}
    (hlive : (s.nodes 1).client = .live) (hmain : s.main = some (.issue target rpc :: rest))
    (h : step n s .main = some s') : (s.nodes 1).stage = .constructed ∧
      s' = { s with calls := s.calls ++ [{ target := target, rpc := rpc }]
                    main := some rest } := by
  obtain ⟨hstage, hs'⟩ := Option.ite_none_right_eq_some.mp h
  simp only [hmain, if_pos hlive] at hs'
  exact ⟨hstage, (Option.some.inj hs').symm⟩

variable {test : String} {reps : ℕ} {past left : List Instr}

/-- **The call node 1 is about to issue has its place in the program**, behind those it has
issued. -/
theorem Progress.getElem?_next (h : Progress (benchProgram test n reps) s past left) {target : ℕ}
    {rpc : RpcName} {rest : List Instr} (hmain : s.main = some (.issue target rpc :: rest)) :
    (issuesOf (benchProgram test n reps))[s.calls.length]? = some (target, rpc) := by
  have hlen : s.calls.length = (issuesOf past).length := by
    rw [← h.issued, List.length_map]
  rw [h.split, h.left_eq hmain, issuesOf_append, hlen, List.getElem?_append_right le_rfl,
    Nat.sub_self]
  rfl

/-- **A node is stopped once**: the `RpcStopDaemon` node 1 is about to issue has not been issued. -/
theorem Progress.not_mem_keys (h : Progress (benchProgram test n reps) s past left) {k : ℕ}
    {rest : List Instr} (hmain : s.main = some (.issue k .stopDaemon :: rest)) :
    (k, RpcName.stopDaemon) ∉ s.calls.map RpcCall.key := by
  intro hmem
  obtain ⟨i, hi⟩ := List.mem_iff_getElem?.mp hmem
  have hlt : i < s.calls.length := by simpa using (List.getElem?_eq_some_iff.mp hi).1
  have hhere := getElem?_issuesOf_benchProgram.mp (h.getElem?_issuesOf hi)
  have hnext := getElem?_issuesOf_benchProgram.mp (h.getElem?_next hmain)
  omega

/-- **A stop issued early** finds its node oversleeping, with its server engine live. -/
theorem canBeLate_of_stop {k : ℕ} {rest : List Instr} (hunderway : Underway n s)
    (hprogress : Progress (benchProgram test n reps) s past left)
    (hconstructed : (s.nodes 1).stage = .constructed)
    (hmain : s.main = some (.issue k .stopDaemon :: rest))
    (hearly : (s.nodes k).stage ≠ .constructed) :
    CanBeLate n { s with calls := s.calls ++ [⟨k, .stopDaemon, .sent, false⟩]
                         main := some rest } := by
  have hover : s.sleepOver n := hunderway.woken 1 (by rw [hconstructed]; rfl)
  obtain ⟨hk, hkn, -⟩ := getElem?_issuesOf_benchProgram.mp (hprogress.getElem?_next hmain)
  have hstarted := serverInitDone_of_sleepOver hover hk hkn
  have hbooted : (s.nodes k).stage ≠ .boot := fun hboot => by
    simp [hboot, Stage.serverInitDone] at hstarted
  have hup : (s.nodes k).stage ≠ .engineUp := fun hup => by
    simp [hup, Stage.serverInitDone] at hstarted
  have hnot : (s.nodes k).server ≠ .finalized := fun hserver =>
    hprogress.not_mem_keys hmain (hunderway.stopped k hserver)
  have hlive : (s.nodes k).server = .live := by
    cases hserver : (s.nodes k).server with
    | absent => exact absurd hserver ((hunderway.equipped k).server hbooted)
    | live => rfl
    | finalized => exact absurd hserver hnot
  have hoversleeps : Oversleeps n s k :=
    ⟨hk, hkn, fun hone => hearly (hone ▸ hconstructed), hover, hstarted, hearly,
      fun haborted => hnot ((hunderway.equipped k).aborted haborted)⟩
  have hissued : (s.calls ++ [⟨k, .stopDaemon, .sent, false⟩])[s.calls.length]?
      = some ⟨k, .stopDaemon, .sent, false⟩ := List.getElem?_concat_length
  have hlate : Oversleeps n { s with calls := s.calls ++ [⟨k, .stopDaemon, .sent, false⟩]
                                     main := some rest } k := hoversleeps.congr fun _ => rfl
  exact hlate.canBeLate_of_sent hissued hlive ((hunderway.equipped k).registered hbooted hup)

/-- **Where nothing can be late after it, node 1 has issued in time.** -/
theorem issuesInTime_main (hunderway : Underway n s)
    (hprogress : Progress (benchProgram test n reps) s past left) (h : step n s .main = some s')
    (hnot : ¬ CanBeLate n s') : IssuesInTime s .main := by
  rintro ⟨k, rpc⟩ hnext
  obtain ⟨hlive, rest, hmain⟩ := main_of_nextCall hnext
  obtain ⟨hconstructed, rfl⟩ := step_main_issue hlive hmain h
  by_cases hrpc : rpc = .stopDaemon
  · subst hrpc
    rw [if_pos rfl]
    by_contra hearly
    exact hnot (canBeLate_of_stop hunderway hprogress hconstructed hmain hearly)
  · rw [if_neg hrpc]
    by_contra hmissing
    have hissued : (s.calls ++ [⟨k, rpc, .sent, false⟩])[s.calls.length]?
        = some ⟨k, rpc, .sent, false⟩ := List.getElem?_concat_length
    have hrunning : System.Running { s with calls := s.calls ++ [⟨k, rpc, .sent, false⟩]
                                            main := some rest } := by
      refine ⟨rfl, Bool.eq_false_iff.mpr fun hexited => ?_⟩
      rw [hunderway.exited hexited] at hmain
      cases hmain
    exact hnot (canBeLate_of_call hissued rfl hrunning hrpc hmissing)

/-- The others cannot make anything late at any point of a run. -/
def NeverLate (n : ℕ) (s : System) (run : List Action) : Prop :=
  ∀ pre later, pre <+: run → (∀ a ∈ later, a ≠ .main) →
    EveryStep (step n) RegistersInTime s (pre ++ later)

theorem NeverLate.tail {a : Action} {run : List Action} (h : NeverLate n s (a :: run))
    (hstep : step n s a = some s') : NeverLate n s' run := fun pre later hpre hlater =>
  (h (a :: pre) later (List.cons_prefix_cons.mpr ⟨rfl, hpre⟩) hlater s' hstep).2

theorem NeverLate.not_canBeLate {a : Action} {run : List Action} (h : NeverLate n s (a :: run))
    (hstep : step n s a = some s') : ¬ CanBeLate n s' := by
  rintro ⟨later, hlater, hbad⟩
  exact hbad (h.tail hstep [] later (List.nil_prefix) hlater)

theorem issuesInTime_of_neverLate : ∀ {run : List Action} {s : System} {past left : List Instr},
    Underway n s → Progress (benchProgram test n reps) s past left → NeverLate n s run →
    EveryStep (step n) IssuesInTime s run
  | [], _, _, _, _, _, _ => trivial
  | a :: run, s, past, left, hunderway, hprogress, h => by
      intro s' hstep
      have hmoves := moves_of_step hstep
      obtain ⟨past', left', hprogress'⟩ := progress_moves hprogress hmoves
      refine ⟨?_, issuesInTime_of_neverLate (hunderway.moves hmoves) hprogress' (h.tail hstep)⟩
      cases a with
      | main => exact issuesInTime_main hunderway hprogress hstep (h.not_canBeLate hstep)
      | advance | deliver | handle | receive | exit => trivial

end Oversleep

/-- **Node 1 issues in time exactly in the runs in which nothing can be late**, whatever the other
parties do at any point of them. -/
theorem issuesInTime_iff (test : String) (n reps : ℕ) (run : List Action) :
    EveryStep (step n) IssuesInTime (initial test n reps) run ↔
      NeverLate n (initial test n reps) run := by
  constructor
  · rintro h pre later ⟨post, rfl⟩ hlater
    refine (inTime_initial test n reps).everyStep (everyStep_append.mpr
      ⟨(everyStep_append.mp h).1, fun t _ => everyStep_of_forall fun s a ha => ?_⟩)
    cases a with
    | main => exact absurd rfl (hlater _ ha)
    | advance | deliver | handle | receive | exit => trivial
  · exact issuesInTime_of_neverLate (underway_initial test n reps) (progress_initial test n reps)

end ChiNettest
