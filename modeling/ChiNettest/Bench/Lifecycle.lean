import Mathlib.Data.List.Basic
import Mathlib.Logic.Function.Basic

/-!
# Bench/Lifecycle — the nodes of a benchmark, from `ServerInit` to `StopAllDaemons`

Every node runs `main` of the benchmark: `ThalliumRpc::ServerInit` (a server engine, the
registration of `RpcStopDaemon`, a client engine), the sleep, the constructor of `TestRunner` (the
registrations of `RpcPing` and `RpcTaskSubmit`).  Node 1 then runs its program — the calls of the
selected test, then those of `StopAllDaemons` — while the handlers run on the pools of the nodes
they arrived at.

One step of the system is one step of one of these: a node's `main`, node 1's program, the arrival
of a call, a handler, the arrival of a response, the end of node 1's process.  `step` is the system,
`Moves` what a step can do (`moves_of_step`), and `NodeMoves` what that is to one node
(`Moves.node`); `Advances` is what the `main` of a node does (`advances_of_advance`).

Of the sleep it is assumed what it is there for: no node wakes before every node has finished
`ThalliumRpc::ServerInit`.  Of Thallium: a call arrives at a node that has registered it and whose
server engine is live, or comes back rejected; a response reaches a live client engine; an engine
cannot be used once it has been finalized, so a process that makes a call or a registration on one
ends there.

Node 1's process also ends when `main` returns, which waits for nobody: what its handlers have not
done by then they do not do.  Another node's ends when its server engine is finalized; a handler
still running there may go on, or be left where it is.
-/

namespace ChiNettest

/-! ## Nodes -/

/-- The RPCs of the benchmark. -/
inductive RpcName
  | stopDaemon
  | ping
  | taskSubmit
  deriving DecidableEq, Repr

/-- The state of an engine of a node. -/
inductive Engine
  | absent
  | live
  | finalized
  deriving DecidableEq, Repr

/-- What `main` of a node has done. -/
inductive Stage
  | boot
  /-- `server_engine_` is made -/
  | engineUp
  /-- `RpcStopDaemon` is registered -/
  | stopRegistered
  /-- `client_engine_` is made: `ThalliumRpc::ServerInit` is finished -/
  | asleep
  | awake
  /-- `RpcPing` is registered -/
  | pingRegistered
  /-- `RpcTaskSubmit` is registered: `TestRunner` is constructed -/
  | constructed
  /-- a registration of the constructor has failed, and ended the process -/
  | aborted
  deriving DecidableEq, Repr

namespace Stage

/-- Whether `ThalliumRpc::ServerInit` is finished. -/
def serverInitDone : Stage → Bool
  | boot | engineUp | stopRegistered => false
  | asleep | awake | pingRegistered | constructed | aborted => true

/-- Whether the next step of `main` registers an RPC. -/
def registersNext : Stage → Bool
  | engineUp | awake | pingRegistered => true
  | boot | stopRegistered | asleep | constructed | aborted => false

end Stage

/-- A node: `main`, the two engines, and the RPCs its server engine has defined. -/
structure NodeState where
  stage : Stage := .boot
  server : Engine := .absent
  client : Engine := .absent
  registered : List RpcName := []
  deriving DecidableEq, Repr

/-- `RegisterRpc` in the constructor of `TestRunner`: it takes `main` to `next`, unless the server
engine is finalized. -/
def NodeState.registerRpc (node : NodeState) (rpc : RpcName) (next : Stage) : NodeState :=
  if node.server = .finalized then { node with stage := .aborted }
  else { node with stage := next, registered := rpc :: node.registered }

/-- The next step of `main` of a node, the sleep being over or not. -/
def NodeState.advance (sleepOver : Bool) (node : NodeState) : Option NodeState :=
  match node.stage with
  | .boot => some { node with stage := .engineUp, server := .live }
  | .engineUp =>
    some { node with stage := .stopRegistered, registered := .stopDaemon :: node.registered }
  | .stopRegistered => some { node with stage := .asleep, client := .live }
  | .asleep => if sleepOver then some { node with stage := .awake } else none
  | .awake => some (node.registerRpc .ping .pingRegistered)
  | .pingRegistered => some (node.registerRpc .taskSubmit .constructed)
  | .constructed | .aborted => none

/-- **The steps of `main` of a node**, each from the stage it is taken in. -/
inductive Advances (sleepOver : Bool) : NodeState → NodeState → Prop
  | makeServer {server client : Engine} {registered : List RpcName} :
      Advances sleepOver ⟨.boot, server, client, registered⟩ ⟨.engineUp, .live, client, registered⟩
  | registerStop {server client : Engine} {registered : List RpcName} :
      Advances sleepOver ⟨.engineUp, server, client, registered⟩
        ⟨.stopRegistered, server, client, .stopDaemon :: registered⟩
  | makeClient {server client : Engine} {registered : List RpcName} :
      Advances sleepOver ⟨.stopRegistered, server, client, registered⟩
        ⟨.asleep, server, .live, registered⟩
  | wake {server client : Engine} {registered : List RpcName} : sleepOver = true →
      Advances sleepOver ⟨.asleep, server, client, registered⟩ ⟨.awake, server, client, registered⟩
  | registerPing {server client : Engine} {registered : List RpcName} : server ≠ .finalized →
      Advances sleepOver ⟨.awake, server, client, registered⟩
        ⟨.pingRegistered, server, client, .ping :: registered⟩
  | registerTaskSubmit {server client : Engine} {registered : List RpcName} :
      server ≠ .finalized →
      Advances sleepOver ⟨.pingRegistered, server, client, registered⟩
        ⟨.constructed, server, client, .taskSubmit :: registered⟩
  | abort {stage : Stage} {client : Engine} {registered : List RpcName} :
      stage = .awake ∨ stage = .pingRegistered →
      Advances sleepOver ⟨stage, .finalized, client, registered⟩
        ⟨.aborted, .finalized, client, registered⟩

/-- What `main` of a node does next is one of them. -/
theorem advances_of_advance {node node' : NodeState} {sleepOver : Bool}
    (h : node.advance sleepOver = some node') : Advances sleepOver node node' := by
  obtain ⟨stage, server, client, registered⟩ := node
  cases stage with
  | boot => exact Option.some.inj h ▸ .makeServer
  | engineUp => exact Option.some.inj h ▸ .registerStop
  | stopRegistered => exact Option.some.inj h ▸ .makeClient
  | asleep =>
    cases sleepOver with
    | false => cases h
    | true => exact Option.some.inj h ▸ .wake rfl
  | awake =>
    obtain rfl := Option.some.inj h
    rw [NodeState.registerRpc]
    split
    · rename_i hserver
      obtain rfl := hserver
      exact .abort (.inl rfl)
    · rename_i hserver
      exact .registerPing hserver
  | pingRegistered =>
    obtain rfl := Option.some.inj h
    rw [NodeState.registerRpc]
    split
    · rename_i hserver
      obtain rfl := hserver
      exact .abort (.inr rfl)
    · rename_i hserver
      exact .registerTaskSubmit hserver
  | constructed => cases h
  | aborted => cases h

/-! ## The program of node 1 -/

/-- The `try` a wait stands in. -/
inductive Guard
  /-- none: the exception leaves `main` -/
  | unguarded
  /-- one around this call -/
  | perCall
  /-- one around the whole wait loop -/
  | wholeLoop
  deriving DecidableEq, Repr

/-- A step of node 1's program: a call, or the wait for the response of an earlier one. -/
inductive Instr
  | issue (target : ℕ) (rpc : RpcName)
  | wait (call : ℕ) (guard : Guard)
  deriving DecidableEq, Repr

namespace Instr

/-- Whether this is a wait of a loop that is caught as a whole. -/
def inLoop : Instr → Bool
  | wait _ .wholeLoop => true
  | _ => false

/-- The call an instruction issues. -/
def issued : Instr → Option (ℕ × RpcName)
  | issue target rpc => some (target, rpc)
  | wait _ _ => none

/-- The call an instruction waits for. -/
def awaited : Instr → Option ℕ
  | issue _ _ => none
  | wait call _ => some call

end Instr

/-- What is left of a program when the wait before it raises: nothing of `main` where the exception
leaves it. -/
def Guard.afterRaise (rest : List Instr) : Guard → Option (List Instr)
  | .unguarded => none
  | .perCall => some rest
  | .wholeLoop => some (rest.dropWhile Instr.inLoop)

/-- The calls of a program. -/
def issuesOf (prog : List Instr) : List (ℕ × RpcName) := prog.filterMap Instr.issued

/-- The waits of a program. -/
def waitsOf (prog : List Instr) : List ℕ := prog.filterMap Instr.awaited

/-- Synchronous calls to `targets`, the first of them call number `k`: each is waited for at once.
-/
def syncCalls (rpc : RpcName) (guard : Guard) : List ℕ → ℕ → List Instr
  | [], _ => []
  | target :: targets, k =>
    .issue target rpc :: .wait k guard :: syncCalls rpc guard targets (k + 1)

/-- Asynchronous calls to `targets`, the first of them call number `k`: all are issued, then all are
waited for. -/
def asyncCalls (rpc : RpcName) (guard : Guard) (targets : List ℕ) (k : ℕ) : List Instr :=
  targets.map (Instr.issue · rpc) ++ (List.range' k targets.length).map (Instr.wait · guard)

/-- `reps` times each of the nodes `1, …, n`, in node order. -/
def repeatedTargets (n reps : ℕ) : List ℕ := (List.range' 1 n).flatMap (List.replicate reps)

/-- The test main selects; an unknown one is none. -/
def testProgram (test : String) (n reps : ℕ) : List Instr :=
  if test = "ping" then syncCalls .ping .perCall (List.range' 1 n) 0
  else if test = "ping_async" then asyncCalls .ping .wholeLoop (List.range' 1 n) 0
  else if test = "io" then syncCalls .taskSubmit .unguarded (repeatedTargets n reps) 0
  else if test = "io_async" then asyncCalls .taskSubmit .unguarded (repeatedTargets n reps) 0
  else if test = "metadata" then syncCalls .ping .unguarded (repeatedTargets n reps) 0
  else if test = "metadata_async" then asyncCalls .ping .unguarded (repeatedTargets n reps) 0
  else []

/-- `StopAllDaemons`, its first call being call number `k`. -/
def stopProgram (n k : ℕ) : List Instr :=
  asyncCalls .stopDaemon .unguarded (List.range' 1 n) k

/-- What node 1 runs after its constructor. -/
def benchProgram (test : String) (n reps : ℕ) : List Instr :=
  testProgram test n reps ++ stopProgram n (issuesOf (testProgram test n reps)).length

/-! ## The system -/

/-- What has become of a call at its target. -/
inductive Handler
  /-- on its way -/
  | sent
  /-- come back: the target has not registered it, or its server engine is finalized -/
  | rejected
  | running
  /-- `req.respond` -/
  | responded
  /-- `client_engine_->finalize()` -/
  | clientFinalized
  /-- `server_engine_->finalize()` -/
  | serverFinalized
  deriving DecidableEq, Repr

/-- A call of node 1, and whether its response has reached node 1. -/
structure RpcCall where
  target : ℕ
  rpc : RpcName
  handler : Handler := .sent
  received : Bool := false
  deriving DecidableEq, Repr

/-- What a call was issued as. -/
def RpcCall.key (call : RpcCall) : ℕ × RpcName := (call.target, call.rpc)

/-- The whole system.  `main` is what node 1's program has left, `none` once its process has ended
with an exception or by using a finalized engine; `exited` is whether the process has ended because
`main` returned. -/
structure System where
  nodes : ℕ → NodeState
  calls : List RpcCall
  main : Option (List Instr)
  collected : List ℕ
  exited : Bool := false

/-- A step of one party. -/
inductive Action
  /-- `main` of a node, up to its constructor -/
  | advance (node : ℕ)
  /-- node 1's program -/
  | main
  /-- a call arrives -/
  | deliver (call : ℕ)
  /-- the handler of a call -/
  | handle (call : ℕ)
  /-- a response arrives -/
  | receive (call : ℕ)
  /-- `main` of node 1 returns, and its process ends -/
  | exit
  deriving DecidableEq, Repr

namespace System

def setNode (s : System) (k : ℕ) (node : NodeState) : System :=
  { s with nodes := Function.update s.nodes k node }

def setCall (s : System) (i : ℕ) (call : RpcCall) : System :=
  { s with calls := s.calls.set i call }

@[simp] theorem nodes_setNode_self (s : System) (k : ℕ) (node : NodeState) :
    (s.setNode k node).nodes k = node := Function.update_self _ _ _

theorem nodes_setNode_of_ne (s : System) {j k : ℕ} (h : j ≠ k) (node : NodeState) :
    (s.setNode k node).nodes j = s.nodes j := Function.update_of_ne h _ _

theorem getElem?_setCall {s : System} {i : ℕ} {call call' : RpcCall}
    (h : s.calls[i]? = some call) : (s.setCall i call').calls[i]? = some call' :=
  List.getElem?_set_self (List.getElem?_eq_some_iff.mp h).1

/-- Whether node 1's process is there. -/
def Running (s : System) : Prop := s.main.isSome ∧ s.exited = false

instance (s : System) : Decidable s.Running := inferInstanceAs (Decidable (_ ∧ _))

/-- Whether the process of a node is there. -/
def Present (s : System) (k : ℕ) : Prop := (k = 1 → s.Running) ∧ (s.nodes k).stage ≠ .aborted

instance (s : System) (k : ℕ) : Decidable (s.Present k) := inferInstanceAs (Decidable (_ ∧ _))

/-- The sleep is over: every node has finished `ThalliumRpc::ServerInit`. -/
def sleepOver (n : ℕ) (s : System) : Bool :=
  (List.range' 1 n).all fun k => (s.nodes k).stage.serverInitDone

/-- Where a call that arrives ends up. -/
def arrival (s : System) (call : RpcCall) : Handler :=
  if (s.nodes call.target).server = .live ∧ call.rpc ∈ (s.nodes call.target).registered
  then .running else .rejected

/-- The next instruction of node 1, with what follows it. -/
def runInstr (s : System) (rest : List Instr) : Instr → Option System
  | .issue target rpc =>
    some { s with calls := s.calls ++ [{ target := target, rpc := rpc }], main := some rest }
  | .wait i guard =>
    match s.calls[i]? with
    | some call =>
      if call.received then
        if call.handler = .rejected then some { s with main := guard.afterRaise rest }
        else some { s with collected := s.collected ++ [i], main := some rest }
      else none
    | none => none

/-- The next step of the handler of call `i`: respond, then, for `RpcStopDaemon`, finalize the
client engine and then the server engine. -/
def runHandler (s : System) (i : ℕ) (call : RpcCall) : Option System :=
  match call.handler, call.rpc with
  | .running, _ => some (s.setCall i { call with handler := .responded })
  | .responded, .stopDaemon =>
    some ((s.setCall i { call with handler := .clientFinalized }).setNode call.target
      { s.nodes call.target with client := .finalized })
  | .clientFinalized, .stopDaemon =>
    some ((s.setCall i { call with handler := .serverFinalized }).setNode call.target
      { s.nodes call.target with server := .finalized })
  | _, _ => none

/-- Whether the response of a call has been sent. -/
def Answered (call : RpcCall) : Prop := call.handler ≠ .sent ∧ call.handler ≠ .running

instance (call : RpcCall) : Decidable (Answered call) := inferInstanceAs (Decidable (_ ∧ _))

end System

/-- **One step of a system of `n` nodes**: `none` where the party cannot take it. -/
def step (n : ℕ) (s : System) : Action → Option System
  | .advance k =>
    if 1 ≤ k ∧ k ≤ n then
      ((s.nodes k).advance (s.sleepOver n)).map fun node => s.setNode k node
    else none
  | .main =>
    if (s.nodes 1).stage = .constructed then
      match s.main with
      | some (instr :: rest) =>
        if (s.nodes 1).client = .live then s.runInstr rest instr else some { s with main := none }
      | _ => none
    else none
  | .deliver i =>
    match s.calls[i]? with
    | some call =>
      -- to another node whose process has ended it comes back rejected, its server engine being
      -- finalized
      if call.handler = .sent ∧ (call.target = 1 → s.Running) then
        some (s.setCall i { call with handler := s.arrival call })
      else none
    | none => none
  | .handle i =>
    match s.calls[i]? with
    | some call => if s.Present call.target then s.runHandler i call else none
    | none => none
  | .receive i =>
    match s.calls[i]? with
    | some call =>
      if System.Answered call ∧ ¬ call.received ∧ (s.nodes 1).client = .live ∧ s.Running then
        some (s.setCall i { call with received := true })
      else none
    | none => none
  | .exit =>
    if (s.nodes 1).stage = .constructed ∧ s.main = some [] ∧ s.exited = false then
      some { s with exited := true }
    else none

/-- Every node at the start of `main`, node 1 with the program of the test. -/
def initial (test : String) (n reps : ℕ) : System where
  nodes _ := {}
  calls := []
  main := some (benchProgram test n reps)
  collected := []

/-! ## What a step can do -/

/-- **The steps of the system**, each with what lets it be taken. -/
inductive Moves (n : ℕ) (s : System) : Action → System → Prop
  | advance {k : ℕ} {node : NodeState} :
      (s.nodes k).advance (s.sleepOver n) = some node → Moves n s (.advance k) (s.setNode k node)
  | issue {target : ℕ} {rpc : RpcName} {rest : List Instr} : (s.nodes 1).stage = .constructed →
      s.main = some (.issue target rpc :: rest) → (s.nodes 1).client = .live →
      Moves n s .main
        { s with calls := s.calls ++ [{ target := target, rpc := rpc }], main := some rest }
  | collect {i : ℕ} {guard : Guard} {rest : List Instr} :
      s.main = some (.wait i guard :: rest) → (s.nodes 1).client = .live →
      Moves n s .main { s with collected := s.collected ++ [i], main := some rest }
  | raise {i : ℕ} {guard : Guard} {rest : List Instr} :
      s.main = some (.wait i guard :: rest) → (s.nodes 1).client = .live →
      Moves n s .main { s with main := guard.afterRaise rest }
  | misuse {instr : Instr} {rest : List Instr} :
      s.main = some (instr :: rest) → (s.nodes 1).client ≠ .live →
      Moves n s .main { s with main := none }
  | deliver {i : ℕ} {call : RpcCall} :
      s.calls[i]? = some call → call.handler = .sent →
      Moves n s (.deliver i) (s.setCall i { call with handler := s.arrival call })
  | respond {i : ℕ} {call : RpcCall} :
      s.calls[i]? = some call → call.handler = .running →
      Moves n s (.handle i) (s.setCall i { call with handler := .responded })
  | finalizeClient {i : ℕ} {call : RpcCall} :
      s.calls[i]? = some call → call.handler = .responded → call.rpc = .stopDaemon →
      Moves n s (.handle i)
        ((s.setCall i { call with handler := .clientFinalized }).setNode call.target
          { s.nodes call.target with client := .finalized })
  | finalizeServer {i : ℕ} {call : RpcCall} :
      s.calls[i]? = some call → call.handler = .clientFinalized → call.rpc = .stopDaemon →
      Moves n s (.handle i)
        ((s.setCall i { call with handler := .serverFinalized }).setNode call.target
          { s.nodes call.target with server := .finalized })
  | receive {i : ℕ} {call : RpcCall} :
      s.calls[i]? = some call → (s.nodes 1).client = .live →
      Moves n s (.receive i) (s.setCall i { call with received := true })
  | exit : s.main = some [] → Moves n s .exit { s with exited := true }

/-- What an instruction can do where the client engine is live. -/
theorem moves_of_runInstr {n : ℕ} {s s' : System} {instr : Instr} {rest : List Instr}
    (hstage : (s.nodes 1).stage = .constructed) (hmain : s.main = some (instr :: rest))
    (hlive : (s.nodes 1).client = .live) (h : s.runInstr rest instr = some s') :
    Moves n s .main s' := by
  cases instr with
  | issue target rpc =>
    obtain rfl := Option.some.inj h
    exact .issue hstage hmain hlive
  | wait i guard =>
    rw [System.runInstr] at h
    split at h
    · split at h
      · split at h
        · obtain rfl := Option.some.inj h
          exact .raise hmain hlive
        · obtain rfl := Option.some.inj h
          exact .collect hmain hlive
      · exact absurd h nofun
    · exact absurd h nofun

/-- What a handler can do. -/
theorem moves_of_runHandler {n : ℕ} {s s' : System} {i : ℕ} {call : RpcCall}
    (hcall : s.calls[i]? = some call) (h : s.runHandler i call = some s') :
    Moves n s (.handle i) s' := by
  rw [System.runHandler] at h
  split at h
  · rename_i hhandler
    obtain rfl := Option.some.inj h
    exact .respond hcall hhandler
  · rename_i hhandler hrpc
    obtain rfl := Option.some.inj h
    exact .finalizeClient hcall hhandler hrpc
  · rename_i hhandler hrpc
    obtain rfl := Option.some.inj h
    exact .finalizeServer hcall hhandler hrpc
  · exact absurd h nofun

/-- What node 1's program can do. -/
theorem moves_of_main {n : ℕ} {s s' : System} (h : step n s .main = some s') :
    Moves n s .main s' := by
  rw [step] at h
  split at h
  · rename_i hstage
    split at h
    · rename_i instr rest hmain
      split at h
      · rename_i hlive
        exact moves_of_runInstr hstage hmain hlive h
      · rename_i hdead
        obtain rfl := Option.some.inj h
        exact .misuse hmain hdead
    · exact absurd h nofun
  · exact absurd h nofun

/-- **What a step can do.** -/
theorem moves_of_step {n : ℕ} {s s' : System} {a : Action} (h : step n s a = some s') :
    Moves n s a s' := by
  cases a with
  | advance k =>
    obtain ⟨-, hs'⟩ := Option.ite_none_right_eq_some.mp h
    obtain ⟨node, hnode, rfl⟩ := Option.map_eq_some_iff.mp hs'
    exact .advance hnode
  | main => exact moves_of_main h
  | deliver i =>
    rw [step] at h
    split at h
    · rename_i call hcall
      obtain ⟨hsent, hs'⟩ := Option.ite_none_right_eq_some.mp h
      obtain rfl := Option.some.inj hs'
      exact .deliver hcall hsent.1
    · exact absurd h nofun
  | handle i =>
    rw [step] at h
    split at h
    · rename_i call hcall
      exact moves_of_runHandler hcall (Option.ite_none_right_eq_some.mp h).2
    · exact absurd h nofun
  | receive i =>
    rw [step] at h
    split at h
    · rename_i call hcall
      obtain ⟨hanswered, hs'⟩ := Option.ite_none_right_eq_some.mp h
      obtain rfl := Option.some.inj hs'
      exact .receive hcall hanswered.2.2.1
    · exact absurd h nofun
  | exit =>
    obtain ⟨⟨-, hmain, -⟩, hs'⟩ := Option.ite_none_right_eq_some.mp h
    obtain rfl := Option.some.inj hs'
    exact .exit hmain

/-! ## What a step leaves -/

/-- Changing what has become of a call does not change what it was issued as. -/
theorem map_key_setCall {s : System} {i : ℕ} {call call' : RpcCall}
    (hcall : s.calls[i]? = some call) (hkey : call'.key = call.key) :
    (s.setCall i call').calls.map RpcCall.key = s.calls.map RpcCall.key := by
  obtain ⟨hi, rfl⟩ := List.getElem?_eq_some_iff.mp hcall
  refine List.ext_getElem (by simp [System.setCall]) fun j hj hj' => ?_
  simp only [System.setCall, List.getElem_map, List.getElem_set]
  split
  · rename_i hij
    subst hij
    exact hkey
  · rfl

/-- **A step of another party leaves node 1's program where it is.** -/
theorem Moves.frame {n : ℕ} {s s' : System} {a : Action} (hmoves : Moves n s a s')
    (ha : a ≠ .main) : s'.calls.map RpcCall.key = s.calls.map RpcCall.key ∧
      s'.main = s.main ∧ s'.collected = s.collected := by
  cases hmoves with
  | issue | collect | raise | misuse => exact absurd rfl ha
  | advance _ => exact ⟨rfl, rfl, rfl⟩
  | deliver hcall _ => exact ⟨map_key_setCall hcall rfl, rfl, rfl⟩
  | respond hcall _ => exact ⟨map_key_setCall hcall rfl, rfl, rfl⟩
  | finalizeClient hcall _ _ => exact ⟨map_key_setCall hcall rfl, rfl, rfl⟩
  | finalizeServer hcall _ _ => exact ⟨map_key_setCall hcall rfl, rfl, rfl⟩
  | receive hcall _ => exact ⟨map_key_setCall hcall rfl, rfl, rfl⟩
  | exit _ => exact ⟨rfl, rfl, rfl⟩

/-- **What a step does to a node**: nothing, a step of its `main`, or a step of a handler of
`RpcStopDaemon` at it. -/
inductive NodeMoves (n : ℕ) (s : System) (k : ℕ) : Action → NodeState → Prop
  | same (a : Action) : NodeMoves n s k a (s.nodes k)
  | advance {node : NodeState} :
      (s.nodes k).advance (s.sleepOver n) = some node → NodeMoves n s k (.advance k) node
  | finalizeClient {i : ℕ} {call : RpcCall} :
      s.calls[i]? = some call → call.key = (k, .stopDaemon) → call.handler = .responded →
      NodeMoves n s k (.handle i) { s.nodes k with client := .finalized }
  | finalizeServer {i : ℕ} {call : RpcCall} :
      s.calls[i]? = some call → call.key = (k, .stopDaemon) → call.handler = .clientFinalized →
      NodeMoves n s k (.handle i) { s.nodes k with server := .finalized }

theorem Moves.node {n : ℕ} {s s' : System} {a : Action} (hmoves : Moves n s a s') (k : ℕ) :
    NodeMoves n s k a (s'.nodes k) := by
  cases hmoves with
  | @advance j node hadvance =>
    rcases eq_or_ne k j with rfl | hk
    · rw [System.nodes_setNode_self]
      exact .advance hadvance
    · rw [System.nodes_setNode_of_ne _ hk]
      exact .same _
  | @finalizeClient i call hcall hhandler hrpc =>
    rcases eq_or_ne k call.target with rfl | hk
    · rw [System.nodes_setNode_self]
      exact .finalizeClient hcall (congrArg (Prod.mk call.target) hrpc) hhandler
    · rw [System.nodes_setNode_of_ne _ hk]
      exact .same _
  | @finalizeServer i call hcall hhandler hrpc =>
    rcases eq_or_ne k call.target with rfl | hk
    · rw [System.nodes_setNode_self]
      exact .finalizeServer hcall (congrArg (Prod.mk call.target) hrpc) hhandler
    · rw [System.nodes_setNode_of_ne _ hk]
      exact .same _
  | _ => exact .same _

/-! ## The programs -/

theorem issuesOf_append (prog prog' : List Instr) :
    issuesOf (prog ++ prog') = issuesOf prog ++ issuesOf prog' := List.filterMap_append

theorem waitsOf_append (prog prog' : List Instr) :
    waitsOf (prog ++ prog') = waitsOf prog ++ waitsOf prog' := List.filterMap_append

theorem issuesOf_syncCalls (rpc : RpcName) (guard : Guard) : ∀ (targets : List ℕ) (k : ℕ),
    issuesOf (syncCalls rpc guard targets k) = targets.map (·, rpc)
  | [], _ => rfl
  | target :: targets, k =>
    congrArg ((target, rpc) :: ·) (issuesOf_syncCalls rpc guard targets (k + 1))

theorem waitsOf_syncCalls (rpc : RpcName) (guard : Guard) : ∀ (targets : List ℕ) (k : ℕ),
    waitsOf (syncCalls rpc guard targets k) = List.range' k targets.length
  | [], _ => rfl
  | _ :: targets, k => congrArg (k :: ·) (waitsOf_syncCalls rpc guard targets (k + 1))

theorem issuesOf_asyncCalls (rpc : RpcName) (guard : Guard) (targets : List ℕ) (k : ℕ) :
    issuesOf (asyncCalls rpc guard targets k) = targets.map (·, rpc) := by
  rw [asyncCalls, issuesOf_append, issuesOf, issuesOf, List.filterMap_map, List.filterMap_map]
  simp [Function.comp_def, Instr.issued]

theorem waitsOf_asyncCalls (rpc : RpcName) (guard : Guard) (targets : List ℕ) (k : ℕ) :
    waitsOf (asyncCalls rpc guard targets k) = List.range' k targets.length := by
  rw [asyncCalls, waitsOf_append, waitsOf, waitsOf, List.filterMap_map, List.filterMap_map]
  simp [Function.comp_def, Instr.awaited]

/-- **Calls of one RPC other than `RpcStopDaemon`**, each waited for once, in order. -/
def PlainCalls (prog : List Instr) : Prop :=
  ∃ (targets : List ℕ) (rpc : RpcName), rpc ≠ .stopDaemon ∧
    issuesOf prog = targets.map (·, rpc) ∧ waitsOf prog = List.range' 0 targets.length

theorem plainCalls_syncCalls {rpc : RpcName} (hrpc : rpc ≠ .stopDaemon) (guard : Guard)
    (targets : List ℕ) : PlainCalls (syncCalls rpc guard targets 0) :=
  ⟨targets, rpc, hrpc, issuesOf_syncCalls rpc guard targets 0,
    waitsOf_syncCalls rpc guard targets 0⟩

theorem plainCalls_asyncCalls {rpc : RpcName} (hrpc : rpc ≠ .stopDaemon) (guard : Guard)
    (targets : List ℕ) : PlainCalls (asyncCalls rpc guard targets 0) :=
  ⟨targets, rpc, hrpc, issuesOf_asyncCalls rpc guard targets 0,
    waitsOf_asyncCalls rpc guard targets 0⟩

/-- **Every test is plain calls.** -/
theorem plainCalls_testProgram (test : String) (n reps : ℕ) :
    PlainCalls (testProgram test n reps) := by
  have hping : RpcName.ping ≠ .stopDaemon := by decide
  have hsubmit : RpcName.taskSubmit ≠ .stopDaemon := by decide
  rw [testProgram]
  split_ifs
  · exact plainCalls_syncCalls hping _ _
  · exact plainCalls_asyncCalls hping _ _
  · exact plainCalls_syncCalls hsubmit _ _
  · exact plainCalls_asyncCalls hsubmit _ _
  · exact plainCalls_syncCalls hping _ _
  · exact plainCalls_asyncCalls hping _ _
  · exact ⟨[], .ping, hping, rfl, rfl⟩

end ChiNettest
