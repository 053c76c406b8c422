import ChiNettest.Bench.Shutdown
import Mathlib.Algebra.Order.BigOperators.Group.List
import Mathlib.Algebra.Order.Ring.Nat

/-!
# Bench/Termination — every run of a benchmark is finite

Whatever the order of its steps, a run of the benchmark does no more than each of its parties has
left: the rest of `main` of every node, the rest of node 1's program and the end of its process, and
of each call its arrival, its handler and the arrival of its response.  `System.stepsLeft` counts
these, and every step spends at least one of them (`stepsLeft_step`).

So a run takes `13 * n` steps at most for the nodes and what stops them, five for each call of the
test, and one for the end of node 1's process (`run_ends`).
-/

namespace ChiNettest

/-! ## What is left to do -/

/-- How many steps `main` of a node has left. -/
def Stage.stepsLeft : Stage → ℕ
  | boot => 6
  | engineUp => 5
  | stopRegistered => 4
  | asleep => 3
  | awake => 2
  | pingRegistered => 1
  | constructed | aborted => 0

/-- How many steps the handler of an RPC takes after its response: `RpcStopDaemon` finalizes two
engines. -/
def RpcName.stepsAfterResponse : RpcName → ℕ
  | stopDaemon => 2
  | ping | taskSubmit => 0

/-- How many steps a call has left at its target, from its arrival on. -/
def Handler.stepsLeft (rpc : RpcName) : Handler → ℕ
  | sent => 2 + rpc.stepsAfterResponse
  | running => 1 + rpc.stepsAfterResponse
  | responded => rpc.stepsAfterResponse
  | clientFinalized => 1
  | rejected | serverFinalized => 0

/-- How many steps a call has left, the arrival of its response among them. -/
def RpcCall.stepsLeft (call : RpcCall) : ℕ :=
  call.handler.stepsLeft call.rpc + if call.received then 0 else 1

/-- How many steps an instruction of node 1 brings with it, those of the call it issues among
them. -/
def Instr.stepsLeft : Instr → ℕ
  | issue target rpc => 1 + RpcCall.stepsLeft { target := target, rpc := rpc }
  | wait _ _ => 1

/-- How many steps a program brings with it. -/
def stepsOf (prog : List Instr) : ℕ := (prog.map Instr.stepsLeft).sum

namespace System

/-- How many steps the `main`s of the nodes have left. -/
def nodeSteps (n : ℕ) (s : System) : ℕ :=
  ((List.range' 1 n).map fun k => (s.nodes k).stage.stepsLeft).sum

/-- How many steps the calls issued have left. -/
def callSteps (s : System) : ℕ := (s.calls.map RpcCall.stepsLeft).sum

/-- How many steps end node 1's process: none once it has ended. -/
def exitSteps (s : System) : ℕ := if s.exited then 0 else 1

/-- **How many steps the system has left**, at most. -/
def stepsLeft (n : ℕ) (s : System) : ℕ :=
  s.nodeSteps n + s.callSteps + stepsOf (s.main.getD []) + s.exitSteps

end System

/-! ## A step spends one of them -/

section Steps

variable {n : ℕ} {s s' : System}

/-- An entry replaced by a smaller one makes a sum smaller. -/
theorem sum_map_set_lt {α : Type*} {f : α → ℕ} {a b : α} (hlt : f b < f a) :
    ∀ {l : List α} {i : ℕ}, l[i]? = some a → ((l.set i b).map f).sum < (l.map f).sum
  | [], i, h => by simp at h
  | c :: l, 0, h => by
      obtain rfl : c = a := by simpa using h
      rw [List.set_cons_zero, List.map_cons, List.map_cons, List.sum_cons, List.sum_cons]
      omega
  | c :: l, i + 1, h => by
      have hrest := sum_map_set_lt hlt (l := l) (i := i) (by simpa using h)
      rw [List.set_cons_succ, List.map_cons, List.map_cons, List.sum_cons, List.sum_cons]
      omega

/-- What a `main` has left, after a step of it. -/
theorem stepsLeft_advance {node node' : NodeState} {sleepOver : Bool}
    (h : node.advance sleepOver = some node') :
    node'.stage.stepsLeft < node.stage.stepsLeft := by
  cases advances_of_advance h with
  | abort hstage => rcases hstage with rfl | rfl <;> simp [Stage.stepsLeft]
  | _ => simp [Stage.stepsLeft]

/-- A node replaced by one in the same stage has as much left. -/
theorem nodeSteps_setNode (k : ℕ) {node : NodeState} (h : node.stage = (s.nodes k).stage) :
    (s.setNode k node).nodeSteps n = s.nodeSteps n := by
  refine congrArg List.sum (List.map_congr_left fun j _ => ?_)
  rcases eq_or_ne j k with rfl | hj
  · rw [System.nodes_setNode_self, h]
  · rw [System.nodes_setNode_of_ne _ hj]

/-- **A step of the `main` of a node is one the nodes have less.** -/
theorem nodeSteps_advance {k : ℕ} {node : NodeState} (hk : 1 ≤ k) (hkn : k ≤ n)
    (h : (s.nodes k).advance (s.sleepOver n) = some node) :
    (s.setNode k node).nodeSteps n < s.nodeSteps n := by
  refine List.sum_lt_sum _ _ (fun j _ => ?_) ⟨k, List.mem_range'_1.mpr ⟨hk, by omega⟩, ?_⟩
  · rcases eq_or_ne j k with rfl | hj
    · rw [System.nodes_setNode_self]
      exact (stepsLeft_advance h).le
    · rw [System.nodes_setNode_of_ne _ hj]
  · rw [System.nodes_setNode_self]
    exact stepsLeft_advance h

/-- **A step of a call is one the calls have less.** -/
theorem callSteps_setCall {i : ℕ} {call call' : RpcCall} (hcall : s.calls[i]? = some call)
    (hlt : call'.stepsLeft < call.stepsLeft) : (s.setCall i call').callSteps < s.callSteps :=
  sum_map_set_lt hlt hcall

theorem stepsOf_cons (instr : Instr) (prog : List Instr) :
    stepsOf (instr :: prog) = instr.stepsLeft + stepsOf prog := by
  rw [stepsOf, List.map_cons, List.sum_cons]
  rfl

theorem stepsOf_append (prog prog' : List Instr) :
    stepsOf (prog ++ prog') = stepsOf prog + stepsOf prog' := by
  rw [stepsOf, List.map_append, List.sum_append]
  rfl

/-- An abandoned loop leaves no more than there was. -/
theorem stepsOf_afterRaise_le (guard : Guard) (rest : List Instr) :
    stepsOf ((guard.afterRaise rest).getD []) ≤ stepsOf rest := by
  cases guard with
  | unguarded => exact Nat.zero_le _
  | perCall => exact le_rfl
  | wholeLoop =>
    have hsplit : stepsOf rest = stepsOf (rest.takeWhile Instr.inLoop)
        + stepsOf (rest.dropWhile Instr.inLoop) := by
      rw [← stepsOf_append, List.takeWhile_append_dropWhile]
    rw [hsplit]
    exact Nat.le_add_left _ _

/-- An instruction has at least itself left. -/
theorem Instr.stepsLeft_pos (instr : Instr) : 0 < instr.stepsLeft := by
  cases instr with
  | issue target rpc => exact Nat.lt_of_lt_of_le Nat.one_pos (Nat.le_add_right _ _)
  | wait call guard => exact Nat.one_pos

/-- **A step of node 1's program is one less**: what it issues was counted with it. -/
theorem stepsLeft_main (h : Moves n s .main s') : s'.stepsLeft n < s.stepsLeft n := by
  cases h with
  | @issue target rpc rest _ hmain _ =>
    have hnew : System.callSteps
        { s with calls := s.calls ++ [{ target := target, rpc := rpc }], main := some rest }
        = s.callSteps + RpcCall.stepsLeft { target := target, rpc := rpc } := by
      rw [System.callSteps, List.map_append, List.sum_append, List.map_singleton,
        List.sum_singleton]
      rfl
    rw [System.stepsLeft, System.stepsLeft, hnew, hmain, Option.getD_some, Option.getD_some,
      stepsOf_cons, Instr.stepsLeft]
    have hnodes : System.nodeSteps n
        { s with calls := s.calls ++ [{ target := target, rpc := rpc }], main := some rest }
        = s.nodeSteps n := rfl
    have hexit : System.exitSteps
        { s with calls := s.calls ++ [{ target := target, rpc := rpc }], main := some rest }
        = s.exitSteps := rfl
    omega
  | collect hmain _ =>
    rw [System.stepsLeft, System.stepsLeft, hmain, Option.getD_some, Option.getD_some,
      stepsOf_cons]
    exact Nat.add_lt_add_right (Nat.add_lt_add_left (Nat.lt_add_of_pos_left Nat.one_pos) _) _
  | @raise i guard rest hmain _ =>
    have hle := stepsOf_afterRaise_le guard rest
    rw [System.stepsLeft, System.stepsLeft, hmain, Option.getD_some, stepsOf_cons]
    exact Nat.add_lt_add_right (Nat.add_lt_add_left
      (Nat.lt_of_le_of_lt hle (Nat.lt_add_of_pos_left Nat.one_pos)) _) _
  | @misuse instr rest hmain _ =>
    rw [System.stepsLeft, System.stepsLeft, hmain, Option.getD_some, stepsOf_cons]
    exact Nat.add_lt_add_right
      (Nat.add_lt_add_left (Nat.add_pos_left instr.stepsLeft_pos _) _) _

/-- The node whose `main` takes a step is one of the `n`. -/
theorem range_of_advance {k : ℕ} (h : step n s (.advance k) = some s') : 1 ≤ k ∧ k ≤ n :=
  (Option.ite_none_right_eq_some.mp h).1

/-- **A response that arrives has been sent and has not arrived before.** -/
theorem receive_spec {i : ℕ} (h : step n s (.receive i) = some s') :
    ∃ call, s.calls[i]? = some call ∧ System.Answered call ∧ call.received = false ∧
      s' = s.setCall i { call with received := true } := by
  rw [step] at h
  split at h
  · rename_i call hcall
    obtain ⟨⟨hanswered, hnew, -, -⟩, hs'⟩ := Option.ite_none_right_eq_some.mp h
    exact ⟨call, hcall, hanswered, by simpa using hnew, (Option.some.inj hs').symm⟩
  · cases h

/-- A call further on, in a system that is the same otherwise. -/
theorem stepsLeft_setCall {i : ℕ} {call call' : RpcCall} (hcall : s.calls[i]? = some call)
    (hlt : call'.stepsLeft < call.stepsLeft) :
    (s.setCall i call').stepsLeft n < s.stepsLeft n :=
  Nat.add_lt_add_right
    (Nat.add_lt_add_right (Nat.add_lt_add_left (callSteps_setCall hcall hlt) _) _) _

/-- A call further on, and an engine of a node finalized. -/
theorem stepsLeft_setCall_setNode {i k : ℕ} {call call' : RpcCall} {node : NodeState}
    (hcall : s.calls[i]? = some call) (hlt : call'.stepsLeft < call.stepsLeft)
    (hstage : node.stage = (s.nodes k).stage) :
    ((s.setCall i call').setNode k node).stepsLeft n < s.stepsLeft n := by
  have hnodes : ((s.setCall i call').setNode k node).nodeSteps n = s.nodeSteps n :=
    nodeSteps_setNode k hstage
  have hcalls := callSteps_setCall hcall hlt
  rw [System.stepsLeft, hnodes]
  exact Nat.add_lt_add_right (Nat.add_lt_add_right (Nat.add_lt_add_left hcalls _) _) _

/-- **Every step spends at least one of the steps left.** -/
theorem stepsLeft_step {a : Action} (h : step n s a = some s') :
    s'.stepsLeft n < s.stepsLeft n := by
  have hmoves := moves_of_step h
  cases a with
  | main => exact stepsLeft_main hmoves
  | advance k =>
    obtain ⟨hk, hkn⟩ := range_of_advance h
    cases hmoves with
    | advance hadvance =>
      have hnodes := nodeSteps_advance hk hkn hadvance
      exact Nat.add_lt_add_right (Nat.add_lt_add_right (Nat.add_lt_add_right hnodes _) _) _
  | deliver i =>
    cases hmoves with
    | @deliver _ call hcall hsent =>
      refine stepsLeft_setCall hcall ?_
      have harrival : (s.arrival call).stepsLeft call.rpc < Handler.sent.stepsLeft call.rpc := by
        rw [System.arrival]
        split <;> simp only [Handler.stepsLeft] <;> omega
      rw [RpcCall.stepsLeft, RpcCall.stepsLeft, hsent]
      exact Nat.add_lt_add_right harrival _
  | handle i =>
    cases hmoves with
    | respond hcall hhandler =>
      refine stepsLeft_setCall hcall ?_
      rw [RpcCall.stepsLeft, RpcCall.stepsLeft, hhandler]
      exact Nat.add_lt_add_right (Nat.lt_add_of_pos_left Nat.one_pos) _
    | finalizeClient hcall hhandler hrpc =>
      refine stepsLeft_setCall_setNode hcall ?_ rfl
      rw [RpcCall.stepsLeft, RpcCall.stepsLeft, hhandler, hrpc]
      exact Nat.add_lt_add_right Nat.one_lt_two _
    | finalizeServer hcall hhandler hrpc =>
      refine stepsLeft_setCall_setNode hcall ?_ rfl
      rw [RpcCall.stepsLeft, RpcCall.stepsLeft, hhandler, hrpc]
      exact Nat.add_lt_add_right Nat.one_pos _
  | receive i =>
    obtain ⟨call, hcall, -, hnew, rfl⟩ := receive_spec h
    refine stepsLeft_setCall hcall ?_
    rw [RpcCall.stepsLeft, RpcCall.stepsLeft, hnew]
    exact Nat.lt_succ_self _
  | exit =>
    obtain ⟨⟨-, -, hexited⟩, hs'⟩ := Option.ite_none_right_eq_some.mp h
    obtain rfl := Option.some.inj hs'
    have hone : s.exitSteps = 1 := by rw [System.exitSteps, hexited]; rfl
    rw [System.stepsLeft, System.stepsLeft, hone]
    exact Nat.lt_succ_self _

end Steps

/-! ## The whole run -/

/-- Calls of one RPC, each waited for once, bring four steps each with them, and two more where the
handler finalizes. -/
theorem stepsOf_syncCalls (rpc : RpcName) (guard : Guard) : ∀ (targets : List ℕ) (k : ℕ),
    stepsOf (syncCalls rpc guard targets k) = targets.length * (5 + rpc.stepsAfterResponse)
  | [], k => by rw [List.length_nil, Nat.zero_mul]; rfl
  | target :: targets, k => by
      have hissue : (Instr.issue target rpc).stepsLeft = 4 + rpc.stepsAfterResponse := by
        simp only [Instr.stepsLeft, RpcCall.stepsLeft, Handler.stepsLeft, Bool.false_eq_true,
          if_false]
        omega
      have hwait : (Instr.wait k guard).stepsLeft = 1 := rfl
      rw [syncCalls, stepsOf_cons, stepsOf_cons, stepsOf_syncCalls rpc guard targets (k + 1),
        hissue, hwait, List.length_cons, Nat.succ_mul]
      omega

theorem stepsOf_map_const {α : Type*} {f : α → Instr} {c : ℕ} (h : ∀ a, (f a).stepsLeft = c)
    (l : List α) : stepsOf (l.map f) = l.length * c := by
  have hconst : (Instr.stepsLeft ∘ f) = fun _ => c := funext h
  rw [stepsOf, List.map_map, hconst, List.map_const', List.sum_replicate_nat]

theorem stepsOf_asyncCalls (rpc : RpcName) (guard : Guard) (targets : List ℕ) (k : ℕ) :
    stepsOf (asyncCalls rpc guard targets k)
      = targets.length * (5 + rpc.stepsAfterResponse) := by
  have hissues : stepsOf (targets.map (Instr.issue · rpc))
      = targets.length * (4 + rpc.stepsAfterResponse) := by
    refine stepsOf_map_const (fun target => ?_) targets
    simp only [Instr.stepsLeft, RpcCall.stepsLeft, Handler.stepsLeft, Bool.false_eq_true, if_false]
    omega
  have hwaits : stepsOf ((List.range' k targets.length).map (Instr.wait · guard))
      = targets.length * 1 := by
    rw [stepsOf_map_const (c := 1) fun _ => rfl, List.length_range']
  rw [asyncCalls, stepsOf_append, hissues, hwaits, ← Nat.mul_add]
  exact congrArg (targets.length * ·) (by omega)

/-- **A test brings five steps with it for each of its calls.** -/
theorem stepsOf_testProgram (test : String) (n reps : ℕ) :
    stepsOf (testProgram test n reps) = 5 * (issuesOf (testProgram test n reps)).length := by
  rw [testProgram]
  split_ifs <;>
    simp [stepsOf_syncCalls, stepsOf_asyncCalls, issuesOf_syncCalls, issuesOf_asyncCalls,
      RpcName.stepsAfterResponse, Nat.mul_comm]
  rfl

/-- **What a benchmark of `n` nodes has before it**, at most. -/
theorem stepsLeft_initial (test : String) (n reps : ℕ) :
    (initial test n reps).stepsLeft n
      = 13 * n + 5 * (issuesOf (testProgram test n reps)).length + 1 := by
  have hnodes : (initial test n reps).nodeSteps n = 6 * n := by
    have hconst : (fun k => ((initial test n reps).nodes k).stage.stepsLeft) = fun _ => 6 := rfl
    rw [System.nodeSteps, hconst, List.map_const', List.length_range', List.sum_replicate_nat,
      Nat.mul_comm]
  have hcalls : (initial test n reps).callSteps = 0 := rfl
  have hprog : stepsOf ((initial test n reps).main.getD [])
      = 5 * (issuesOf (testProgram test n reps)).length + n * 7 := by
    rw [initial, Option.getD_some, benchProgram, stepsOf_append, stepsOf_testProgram, stopProgram,
      stepsOf_asyncCalls, List.length_range']
    rfl
  have hexit : (initial test n reps).exitSteps = 1 := rfl
  rw [System.stepsLeft, hnodes, hcalls, hprog, hexit]
  omega

/-- **No run of a benchmark goes on for ever**, whatever the order of its steps.  It takes no more
than six steps for the `main` of each node, seven for stopping each node, five for each call of the
test and one for the end of node 1's process, and can be extended within these until nothing can be
done. -/
theorem run_ends (test : String) (n reps : ℕ) (run : List Action) (s : System)
    (h : exec (step n) (initial test n reps) run = some s) :
    ∃ rest t, exec (step n) s rest = some t ∧ Stuck (step n) t ∧
      (run ++ rest).length ≤ 13 * n + 5 * (issuesOf (testProgram test n reps)).length + 1 := by
  have hspent : ∀ s a s', True → step n s a = some s' → s'.stepsLeft n < s.stepsLeft n :=
    fun _ _ _ _ hstep => stepsLeft_step hstep
  obtain ⟨rest, t, hrest, hstuck⟩ :=
    exists_stuck_of_measure (fun _ _ _ _ _ => trivial) hspent s trivial
  have hwhole : exec (step n) (initial test n reps) (run ++ rest) = some t :=
    (exec_append h).trans hrest
  have hlength := length_add_le_of_measure (fun _ _ _ _ _ => trivial) hspent trivial hwhole
  rw [stepsLeft_initial] at hlength
  exact ⟨rest, t, hrest, hstuck, by omega⟩

/-- One node that has pinged itself and is about to stop itself. -/
theorem run_ends_pinged : ∃ s, exec (step 1) (initial "ping" 1 1)
      (advanceAll 1 ++ advanceAll 1 ++ syncRound 0) = some s ∧
    ∃ rest t, exec (step 1) s rest = some t ∧ Stuck (step 1) t ∧
      (advanceAll 1 ++ advanceAll 1 ++ syncRound 0 ++ rest).length
        ≤ 13 * 1 + 5 * (issuesOf (testProgram "ping" 1 1)).length + 1 := by
  obtain ⟨s, hs⟩ := Option.isSome_iff_exists.mp (by decide : (exec (step 1) (initial "ping" 1 1)
    (advanceAll 1 ++ advanceAll 1 ++ syncRound 0)).isSome = true)
  exact ⟨s, hs, run_ends "ping" 1 1 _ s hs⟩

end ChiNettest
