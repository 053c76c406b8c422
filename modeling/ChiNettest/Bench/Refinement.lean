import ChiNettest.Bench.Main
import ChiNettest.Bench.Registration
import ChiNettest.Bench.Termination

/-!
# Bench/Refinement — node 1 of a run does what `main` does

A state of the system fixes what has become of the calls node 1 has waited for.  `Tracks` says that
node 1's program is where `runProgram` would be with these responses, and every step keeps it
(`Tracks.step`).

With `Bench/Main` this joins the two views of node 1: where its process has come to its end in a run
of the system, by returning or by an exception, `main`, run against nodes that raise exactly the
calls rejected in that run, issues the same calls in the same order and ends the same way
(`benchMain_of_run`).  A process that ends by using a finalized engine is left out: `main` run alone
has no handler beside it that finalizes one.
-/

namespace ChiNettest

/-! ## What a step does to a call -/

/-- **A call further on**: what has arrived stays so, and a response once sent stays what it is. -/
structure Later (call call' : RpcCall) : Prop where
  key : call'.key = call.key
  received : call.received = true → call'.received = true
  answered : System.Answered call → System.Answered call'
  rejected : System.Answered call → (call'.handler = .rejected ↔ call.handler = .rejected)
  arrives : call'.received = true → call.received = true ∨ System.Answered call

/-- **What a step does to the calls**: nothing, one more, or one of them further on. -/
inductive CallsMove (calls : List RpcCall) : List RpcCall → Prop
  | same : CallsMove calls calls
  | issue (target : ℕ) (rpc : RpcName) :
      CallsMove calls (calls ++ [{ target := target, rpc := rpc }])
  | later {i : ℕ} {call call' : RpcCall} :
      calls[i]? = some call → Later call call' → CallsMove calls (calls.set i call')

section Calls

variable {n : ℕ} {s s' : System} {a : Action}

/-- A handler that goes on after `req.respond` leaves the response what it is. -/
theorem later_of_answered {call : RpcCall} {handler : Handler} (h : call.handler ≠ .rejected)
    (hlater : handler ≠ .rejected ∧ handler ≠ .sent ∧ handler ≠ .running) :
    Later call { call with handler := handler } where
  key := rfl
  received := id
  answered _ := hlater.2
  rejected _ := iff_of_false hlater.1 h
  arrives := .inl

/-- A call not yet answered has no response to change. -/
theorem later_of_not_answered {call : RpcCall} {handler : Handler}
    (h : ¬ System.Answered call) : Later call { call with handler := handler } where
  key := rfl
  received := id
  answered hanswered := absurd hanswered h
  rejected hanswered := absurd hanswered h
  arrives := .inl

theorem callsMove_of_step (h : step n s a = some s') : CallsMove s.calls s'.calls := by
  cases hmoves : moves_of_step h with
  | advance | collect | raise | misuse | exit => exact .same
  | issue => exact .issue _ _
  | @deliver i call hcall hsent =>
    exact .later hcall (later_of_not_answered fun hanswered => hanswered.1 hsent)
  | @respond i call hcall hrunning =>
    exact .later hcall (later_of_not_answered fun hanswered => hanswered.2 hrunning)
  | @finalizeClient i call hcall hhandler hrpc =>
    exact .later hcall (later_of_answered (by simp [hhandler]) (by simp))
  | @finalizeServer i call hcall hhandler hrpc =>
    exact .later hcall (later_of_answered (by simp [hhandler]) (by simp))
  | @receive i call hcall hlive =>
    obtain ⟨call', hcall', hanswered, -, -⟩ := receive_spec h
    obtain rfl := Option.some.inj (hcall.symm.trans hcall')
    exact .later hcall ⟨rfl, fun _ => rfl, id, fun _ => Iff.rfl, fun _ => .inr hanswered⟩

end Calls

/-- Every response that has arrived has been sent. -/
def ReceivedAnswered (calls : List RpcCall) : Prop :=
  ∀ call ∈ calls, call.received = true → System.Answered call

/-- **`raises` tells of the responses that have arrived**: those of the calls rejected raise. -/
def Settles (raises : ℕ → ℕ × RpcName → Bool) (calls : List RpcCall) : Prop :=
  ∀ i call, calls[i]? = some call → call.received = true →
    raises i call.key = decide (call.handler = .rejected)

section Moves

variable {calls calls' : List RpcCall} {raises : ℕ → ℕ × RpcName → Bool}

theorem ReceivedAnswered.move (h : ReceivedAnswered calls) (hmove : CallsMove calls calls') :
    ReceivedAnswered calls' := by
  cases hmove with
  | same => exact h
  | issue target rpc =>
    intro call hcall hreceived
    rcases List.mem_append.mp hcall with hcall | hcall
    · exact h call hcall hreceived
    · obtain rfl := List.mem_singleton.mp hcall
      cases hreceived
  | @later i call call' hcall hlater =>
    intro c hc hreceived
    rcases List.mem_or_eq_of_mem_set hc with hc | rfl
    · exact h c hc hreceived
    · rcases hlater.arrives hreceived with hbefore | hanswered
      · exact hlater.answered (h call (List.mem_of_getElem? hcall) hbefore)
      · exact hlater.answered hanswered

/-- **What tells of the responses after a step told of those before it.** -/
theorem Settles.back (h : Settles raises calls') (hanswered : ReceivedAnswered calls)
    (hmove : CallsMove calls calls') : Settles raises calls := by
  intro i call hcall hreceived
  cases hmove with
  | same => exact h i call hcall hreceived
  | issue target rpc =>
    obtain ⟨hi, -⟩ := List.getElem?_eq_some_iff.mp hcall
    exact h i call ((List.getElem?_append_left hi).trans hcall) hreceived
  | @later j old new hold hlater =>
    rcases eq_or_ne j i with rfl | hij
    · obtain rfl := Option.some.inj (hold.symm.trans hcall)
      have hsent : System.Answered old := hanswered old (List.mem_of_getElem? hcall) hreceived
      have hnew : (calls.set j new)[j]? = some new :=
        List.getElem?_set_self (List.getElem?_eq_some_iff.mp hcall).1
      rw [← hlater.key, h j new hnew (hlater.received hreceived)]
      exact decide_eq_decide.mpr (hlater.rejected hsent)
    · exact h i call ((List.getElem?_set_ne hij).trans hcall) hreceived

/-- A call that has arrived tells `runProgram` what it needs. -/
theorem Settles.wait (h : Settles raises calls) {i : ℕ} {call : RpcCall}
    (hcall : calls[i]? = some call) (hreceived : call.received = true) :
    (calls.map RpcCall.key)[i]? = some call.key ∧
      raises i call.key = decide (call.handler = .rejected) :=
  ⟨by rw [List.getElem?_map, hcall, Option.map_some], h i call hcall hreceived⟩

end Moves

/-! ## Node 1's program, step by step -/

/-- **What node 1's program does next**, with what it has found where it waits. -/
inductive MainMoves (s : System) : System → Prop
  | issue {target : ℕ} {rpc : RpcName} {rest : List Instr} :
      s.main = some (.issue target rpc :: rest) →
      MainMoves s { s with calls := s.calls ++ [{ target := target, rpc := rpc }]
                           main := some rest }
  | collect {i : ℕ} {guard : Guard} {rest : List Instr} {call : RpcCall} :
      s.main = some (.wait i guard :: rest) → s.calls[i]? = some call → call.received = true →
      call.handler ≠ .rejected →
      MainMoves s { s with collected := s.collected ++ [i], main := some rest }
  | raise {i : ℕ} {guard : Guard} {rest : List Instr} {call : RpcCall} :
      s.main = some (.wait i guard :: rest) → s.calls[i]? = some call → call.received = true →
      call.handler = .rejected → MainMoves s { s with main := guard.afterRaise rest }
  | misuse : (s.nodes 1).client ≠ .live → MainMoves s { s with main := none }

theorem mainMoves_of_runInstr {s s' : System} {instr : Instr} {rest : List Instr}
    (hmain : s.main = some (instr :: rest)) (h : s.runInstr rest instr = some s') :
    MainMoves s s' := by
  cases instr with
  | issue target rpc =>
    obtain rfl := Option.some.inj h
    exact .issue hmain
  | wait i guard =>
    rw [System.runInstr] at h
    split at h
    · rename_i call hcall
      obtain ⟨hreceived, hs'⟩ := Option.ite_none_right_eq_some.mp h
      split at hs'
      · rename_i hrejected
        obtain rfl := Option.some.inj hs'
        exact .raise hmain hcall hreceived hrejected
      · rename_i haccepted
        obtain rfl := Option.some.inj hs'
        exact .collect hmain hcall hreceived haccepted
    · cases h

/-- A step of node 1's program, which runs once its constructor is finished. -/
theorem mainMoves_of_step {n : ℕ} {s s' : System} (h : step n s .main = some s') :
    (s.nodes 1).stage = .constructed ∧ MainMoves s s' := by
  obtain ⟨hstage, hs'⟩ := Option.ite_none_right_eq_some.mp h
  refine ⟨hstage, ?_⟩
  split at hs'
  · rename_i instr rest hmain
    split at hs'
    · exact mainMoves_of_runInstr hmain hs'
    · rename_i hdead
      obtain rfl := Option.some.inj hs'
      exact .misuse hdead
  · cases hs'

/-- **Node 1 is where `full` would be** with the responses that have arrived: what is left of its
program comes to what `full` comes to, and where an exception has ended its process, one ends
`full`. -/
structure Tracks (full : List Instr) (s : System) : Prop where
  answered : ReceivedAnswered s.calls
  constructed : s.main = none → (s.nodes 1).stage = .constructed
  running : ∀ {raises : ℕ → ℕ × RpcName → Bool} {rest : List Instr}, Settles raises s.calls →
    s.main = some rest →
    runProgram raises full [] = runProgram raises rest (s.calls.map RpcCall.key)
  ended : ∀ {raises : ℕ → ℕ × RpcName → Bool}, Settles raises s.calls → s.main = none →
    (s.nodes 1).client = .live → runProgram raises full [] = ⟨s.calls.map RpcCall.key, false⟩

section Tracks

variable {full : List Instr} {n : ℕ} {s s' : System}

theorem tracks_initial (test : String) (n reps : ℕ) :
    Tracks (benchProgram test n reps) (initial test n reps) where
  answered _ hcall := absurd hcall List.not_mem_nil
  constructed hmain := by cases hmain
  running _ hmain := by rw [Option.some.inj hmain]; rfl
  ended _ hmain := by cases hmain

/-- A raise that nothing catches ends the program, and one that is caught goes on behind. -/
theorem runProgram_raise {raises : ℕ → ℕ × RpcName → Bool} {i : ℕ} {guard : Guard}
    {rest : List Instr} {issued : List (ℕ × RpcName)} {call : ℕ × RpcName}
    (hcall : issued[i]? = some call) (h : raises i call = true) :
    runProgram raises (.wait i guard :: rest) issued
      = ((guard.afterRaise rest).map fun rest' => runProgram raises rest' issued).getD
          ⟨issued, false⟩ := by
  cases guard with
  | unguarded => exact runProgram_wait_raise hcall h
  | perCall => exact runProgram_wait_caught hcall h rfl
  | wholeLoop => exact runProgram_wait_caught hcall h rfl

/-- **A step of node 1's program** is a step of `full`. -/
theorem Tracks.main (h : Tracks full s) (hstep : step n s .main = some s') : Tracks full s' := by
  obtain ⟨hstage, hmain⟩ := mainMoves_of_step hstep
  have hmove := callsMove_of_step hstep
  have hanswered : ReceivedAnswered s'.calls := h.answered.move hmove
  cases hmain with
  | @issue target rpc rest hmain =>
    refine ⟨hanswered, fun hnone => (by cases hnone), fun {raises _} hs hrest => ?_,
      fun _ hnone => (by cases hnone)⟩
    obtain rfl := Option.some.inj hrest
    rw [h.running (hs.back h.answered hmove) hmain, runProgram_issue, List.map_append]
    rfl
  | @collect i guard rest call hmain hcall hreceived haccepted =>
    refine ⟨hanswered, fun hnone => (by cases hnone), fun {raises _} hs hrest => ?_,
      fun _ hnone => (by cases hnone)⟩
    obtain rfl := Option.some.inj hrest
    have hs : Settles raises s.calls := hs
    obtain ⟨hkey, hraise⟩ := hs.wait hcall hreceived
    rw [decide_eq_false haccepted] at hraise
    rw [h.running hs hmain, runProgram_wait_ok hkey hraise]
  | @raise i guard rest call hmain hcall hreceived hrejected =>
    have hraises : ∀ {raises : ℕ → ℕ × RpcName → Bool}, Settles raises s.calls →
        runProgram raises full [] = ((guard.afterRaise rest).map fun rest' =>
          runProgram raises rest' (s.calls.map RpcCall.key)).getD
            ⟨s.calls.map RpcCall.key, false⟩ := by
      intro raises hs
      obtain ⟨hkey, hraise⟩ := hs.wait hcall hreceived
      rw [decide_eq_true hrejected] at hraise
      rw [h.running hs hmain, runProgram_raise hkey hraise]
    refine ⟨hanswered, fun _ => hstage, fun {raises rest'} hs hrest => ?_, fun hs hnone _ => ?_⟩
    · have hrest : guard.afterRaise rest = some rest' := hrest
      rw [hraises hs, hrest, Option.map_some, Option.getD_some]
    · have hnone : guard.afterRaise rest = none := hnone
      rw [hraises hs, hnone, Option.map_none, Option.getD_none]
  | misuse hdead =>
    exact ⟨hanswered, fun _ => hstage, fun _ hrest => (by cases hrest),
      fun _ _ hlive => absurd hlive hdead⟩

/-- What a step of another party leaves of node 1's `main` and its client engine, once its process
has ended. -/
theorem node_one_step {a : Action} (hmoves : Moves n s a s')
    (hstage : (s.nodes 1).stage = .constructed) :
    (s'.nodes 1).stage = .constructed ∧
      ((s'.nodes 1).client = .live → (s.nodes 1).client = .live) := by
  have hnode := hmoves.node 1
  generalize s'.nodes 1 = node at hnode
  cases hnode with
  | same => exact ⟨hstage, id⟩
  | advance hadvance =>
    rw [NodeState.advance, hstage] at hadvance
    cases hadvance
  | finalizeClient _ _ _ => exact ⟨hstage, fun hlive => (by cases hlive)⟩
  | finalizeServer _ _ _ => exact ⟨hstage, id⟩

/-- **Every step of the system keeps node 1 where `full` would be.** -/
theorem Tracks.step {a : Action} (h : Tracks full s) (hstep : ChiNettest.step n s a = some s') :
    Tracks full s' := by
  rcases eq_or_ne a .main with rfl | ha
  · exact h.main hstep
  · have hmoves := moves_of_step hstep
    have hmove := callsMove_of_step hstep
    obtain ⟨hkeys, hmain, -⟩ := hmoves.frame ha
    refine ⟨h.answered.move hmove, fun hnone => ?_, fun hs hrest => ?_, fun hs hnone hlive => ?_⟩
    · exact (node_one_step hmoves (h.constructed (hmain ▸ hnone))).1
    · rw [hkeys]
      exact h.running (hs.back h.answered hmove) (hmain ▸ hrest)
    · have hnone : s.main = none := hmain ▸ hnone
      rw [hkeys]
      exact h.ended (hs.back h.answered hmove) hnone
        ((node_one_step hmoves (h.constructed hnone)).2 hlive)

end Tracks

/-! ## Whole runs -/

/-- **Node 1 of a run does what `main` does.**  Where its process has come to its end, by returning
or by an exception, `main`, run so that of the calls whose responses have arrived in the run exactly
those rejected raise, issues the calls of the run in their order and ends the same way. -/
theorem benchMain_of_run (lib : HshmAny) {net : ℕ → NodeId → CallOutcome} {ctx : RpcContext}
    {heap : Heap} {config : ServerConfig} (h : BenchFits net ctx heap config) {fuel : ℕ}
    (hfuel : max ctx.numHosts config.rep.toNat < fuel) (hnode : ctx.nodeId = 1)
    {run : List Action} {t : System}
    (hrun : exec (step ctx.numHosts)
      (initial config.test ctx.numHosts config.rep.toNat) run = some t)
    (hnet : ∀ i call, t.calls[i]? = some call → call.received = true →
      (net i (UInt32.ofNat call.target) = .waitRaises ↔ call.handler = .rejected))
    (hend : t.main = some [] ∨ t.main = none ∧ (t.nodes 1).client = .live) :
    ∃ r s, (benchMain lib net ctx heap config fuel).run {} = some (r, s) ∧
      Issued s (t.calls.map RpcCall.key) ∧
      r = if t.main = some [] then .ok () else .error .margo := by
  have htracks : Tracks (benchProgram config.test ctx.numHosts config.rep.toNat) t :=
    invariant_of_exec (fun _ _ _ hs hstep => hs.step hstep) (tracks_initial _ _ _) hrun
  have hsettles : Settles (raisesOf net) t.calls := fun i call hcall hreceived =>
    decide_eq_decide.mpr (hnet i call hcall hreceived)
  have hprog : programOf ctx config
      = benchProgram config.test ctx.numHosts config.rep.toNat := if_pos hnode
  obtain ⟨r, s, hmain, hissued, hr⟩ := (agrees_benchMain h hfuel).atEnd
  rw [hprog] at hissued hr
  refine ⟨r, s, hmain, ?_⟩
  rcases hend with hdone | ⟨hnone, hlive⟩
  · rw [htracks.running hsettles hdone, runProgram_nil] at hissued hr
    exact ⟨hissued, by rw [hr, hdone]; rfl⟩
  · rw [htracks.ended hsettles hnone hlive] at hissued hr
    exact ⟨hissued, by rw [hr, hnone]; rfl⟩

/-- The run in which the second node oversleeps, to the end of node 1's program: the second call is
rejected. -/
def oversleptToEnd : List Action :=
  oversleptRun ++ [.deliver 2, .handle 2, .receive 2, .main, .receive 3, .main, .exit]

theorem benchMain_of_run_oversleptToEnd :
    ∃ t, exec (step 2) (initial "ping" 2 1) oversleptToEnd = some t ∧
      ∃ r s, (benchMain wordFlags secondCallLost twoHosts roomyHeap
          { repeating 1 with test := "ping" } 3).run {} = some (r, s) ∧
        Issued s (t.calls.map RpcCall.key) ∧
        r = if t.main = some [] then .ok () else .error .margo := by
  have hend : (exec (step 2) (initial "ping" 2 1) oversleptToEnd).map
      (fun t => (t.main, t.calls)) = some (some [],
        [⟨1, .ping, .responded, true⟩, ⟨2, .ping, .rejected, true⟩,
          ⟨1, .stopDaemon, .responded, true⟩, ⟨2, .stopDaemon, .serverFinalized, true⟩]) := by
    decide
  obtain ⟨t, ht, hvalues⟩ := Option.map_eq_some_iff.mp hend
  obtain ⟨hmain, hcalls⟩ := Prod.mk.inj hvalues
  have hnet : ∀ i call, t.calls[i]? = some call → call.received = true →
      (secondCallLost i (UInt32.ofNat call.target) = .waitRaises ↔
        call.handler = .rejected) := by
    intro i call hcall _
    rw [hcalls] at hcall
    obtain _ | _ | _ | _ | i := i <;> simp at hcall <;> subst hcall <;> decide
  have hfits : BenchFits secondCallLost twoHosts roomyHeap { repeating 1 with test := "ping" } :=
    ⟨by decide, by decide, by decide, by decide, fun i nodeId _ => by
      rw [secondCallLost]
      split <;> simp⟩
  exact ⟨t, ht, benchMain_of_run wordFlags hfits (by decide) (by decide) ht hnet (.inl hmain)⟩

end ChiNettest
