import ChiNettest.Bench.Lifecycle
import ChiNettest.Machinery.Runs
import Mathlib.Data.List.Nodup
import Mathlib.Data.List.TakeWhile

/-!
# Bench/Shutdown — the caller of `StopAllDaemons` is one of the nodes it stops

Node 1 calls itself first, so its own handler of `RpcStopDaemon` races with the rest of the issue
loop and with the whole wait loop; the parameter `last_node` orders nothing.

`Progress` ties the calls issued and the responses collected to what node 1's program has behind
it.  From it, the responses of all nodes are collected exactly when the program is finished
(`allCollected_iff`), and a run never cuts the caller off exactly when node 1's handler finalizes
the client engine only then (`callerNotCutOff_iff`).
-/

namespace ChiNettest

/-! ## Where node 1 stands in its program -/

/-- **Node 1 has `past` of its program behind it and `left` before it**: the calls issued are those
of `past`, what is collected was waited for in `past`, and a wait that no `try` stands around has
been collected.  A process that has ended has not come to the end. -/
structure Progress (full : List Instr) (s : System) (past left : List Instr) : Prop where
  split : full = past ++ left
  issued : s.calls.map RpcCall.key = issuesOf past
  collected : ∀ i ∈ s.collected, i ∈ waitsOf past
  waited : ∀ i, .wait i .unguarded ∈ past → i ∈ s.collected
  main : s.main = some left ∨ s.main = none ∧ left ≠ []

section Progress

variable {full past left : List Instr} {s s' : System}

/-- Steps of others leave node 1 where it stands. -/
theorem Progress.frame (h : Progress full s past left)
    (hcalls : s'.calls.map RpcCall.key = s.calls.map RpcCall.key) (hmain : s'.main = s.main)
    (hcollected : s'.collected = s.collected) : Progress full s' past left where
  split := h.split
  issued := hcalls.trans h.issued
  collected := hcollected ▸ h.collected
  waited := hcollected ▸ h.waited
  main := hmain ▸ h.main

/-- An instruction node 1 is about to run is the next of its program. -/
theorem Progress.left_eq (h : Progress full s past left) {instrs : List Instr}
    (hmain : s.main = some instrs) : left = instrs := by
  rcases h.main with hleft | ⟨hnone, -⟩
  · exact Option.some.inj (hleft.symm.trans hmain)
  · exact absurd (hnone.symm.trans hmain) nofun

/-- A process that ends before its program does has something left. -/
theorem Progress.ended (h : Progress full s past left) {instr : Instr} {rest : List Instr}
    (hmain : s.main = some (instr :: rest)) : Progress full { s with main := none } past left where
  split := h.split
  issued := h.issued
  collected := h.collected
  waited := h.waited
  main := Or.inr ⟨rfl, by rw [h.left_eq hmain]; exact List.cons_ne_nil _ _⟩

theorem issuesOf_takeWhile_inLoop : ∀ prog : List Instr,
    issuesOf (prog.takeWhile Instr.inLoop) = []
  | [] => rfl
  | .issue _ _ :: _ => rfl
  | .wait _ .unguarded :: _ => rfl
  | .wait _ .perCall :: _ => rfl
  | .wait _ .wholeLoop :: prog => issuesOf_takeWhile_inLoop prog

/-- **Node 1 gets past a block of its program** by issuing its calls, collecting nothing but what
it waits for, and all of that where no `try` stands around it. -/
theorem Progress.pass {block rest : List Instr} (h : Progress full s past (block ++ rest))
    (hissued : s'.calls.map RpcCall.key = s.calls.map RpcCall.key ++ issuesOf block)
    (hkept : ∀ i ∈ s.collected, i ∈ s'.collected)
    (hnew : ∀ i ∈ s'.collected, i ∈ s.collected ∨ i ∈ waitsOf block)
    (hwaited : ∀ i, .wait i .unguarded ∈ block → i ∈ s'.collected)
    (hmain : s'.main = some rest) : Progress full s' (past ++ block) rest where
  split := by rw [h.split, List.append_assoc]
  issued := by rw [hissued, h.issued, issuesOf_append]
  collected i hi := by
    rw [waitsOf_append, List.mem_append]
    exact (hnew i hi).imp_left (h.collected i)
  waited i hi := by
    rcases List.mem_append.mp hi with hi | hi
    · exact hkept i (h.waited i hi)
    · exact hwaited i hi
  main := Or.inl hmain

/-- **A wait that raises leaves node 1 somewhere in its program**: at the wait, if that ends the
process, else behind everything the `try` around it abandons. -/
theorem progress_raise (h : Progress full s past left) {i : ℕ} {guard : Guard}
    {rest : List Instr} (hmain : s.main = some (.wait i guard :: rest)) :
    ∃ past' left', Progress full { s with main := guard.afterRaise rest } past' left' := by
  obtain rfl := h.left_eq hmain
  cases guard with
  | unguarded => exact ⟨past, _, h.ended hmain⟩
  | perCall =>
    have hblock : Progress full s past ([.wait i .perCall] ++ rest) := h
    exact ⟨_, rest, hblock.pass (List.append_nil _).symm (fun _ hj => hj) (fun _ hj => Or.inl hj)
      (fun j hj => absurd hj (by simp)) rfl⟩
  | wholeLoop =>
    have hrest : .wait i .wholeLoop :: rest = (.wait i .wholeLoop :: rest.takeWhile Instr.inLoop) ++
        rest.dropWhile Instr.inLoop := by
      rw [List.cons_append, List.takeWhile_append_dropWhile]
    have hnone : issuesOf (.wait i .wholeLoop :: rest.takeWhile Instr.inLoop) = [] :=
      issuesOf_takeWhile_inLoop rest
    have hguarded : ∀ j,
        .wait j .unguarded ∉ .wait i .wholeLoop :: rest.takeWhile Instr.inLoop := by
      intro j hj
      rcases List.mem_cons.mp hj with hj | hj
      · exact absurd hj (by simp)
      · have hloop : Instr.inLoop (.wait j .unguarded) = true := List.mem_takeWhile_imp hj
        exact absurd hloop Bool.false_ne_true
    rw [hrest] at h
    exact ⟨_, _, h.pass (by rw [hnone, List.append_nil]) (fun _ hj => hj) (fun _ hj => Or.inl hj)
      (fun j hj => absurd hj (hguarded j)) rfl⟩

/-- **A step keeps node 1 somewhere in its program.** -/
theorem progress_moves {n : ℕ} {a : Action} (h : Progress full s past left)
    (hmoves : Moves n s a s') : ∃ past' left', Progress full s' past' left' := by
  rcases eq_or_ne a .main with rfl | ha
  · cases hmoves with
    | @issue target rpc rest _ hmain _ =>
      obtain rfl := h.left_eq hmain
      have hblock : Progress full s past ([.issue target rpc] ++ rest) := h
      exact ⟨_, rest, hblock.pass List.map_append (fun _ hj => hj) (fun _ hj => Or.inl hj)
        (fun j hj => absurd hj (by simp)) rfl⟩
    | @collect i guard rest hmain _ =>
      obtain rfl := h.left_eq hmain
      have hblock : Progress full s past ([.wait i guard] ++ rest) := h
      refine ⟨_, rest, hblock.pass (List.append_nil _).symm
        (fun _ hj => List.mem_append_left _ hj) (fun _ hj => List.mem_append.mp hj) ?_ rfl⟩
      intro j hj
      obtain ⟨rfl, -⟩ := Instr.wait.inj (List.mem_singleton.mp hj)
      exact List.mem_append_right _ (List.mem_singleton.mpr rfl)
    | raise hmain _ => exact progress_raise h hmain
    | misuse hmain _ => exact ⟨past, left, h.ended hmain⟩
  · obtain ⟨hcalls, hmain, hcollected⟩ := hmoves.frame ha
    exact ⟨past, left, h.frame hcalls hmain hcollected⟩

end Progress

/-! ## The end of the program -/

section Finish

variable {test : String} {n reps : ℕ} {past left : List Instr} {s s' : System}

/-- **All `RpcStopDaemon` calls are issued and all their responses collected.** -/
def AllCollected (n : ℕ) (s : System) : Prop :=
  ∀ k, 1 ≤ k → k ≤ n → ∃ i ∈ s.collected,
    (s.calls.map RpcCall.key)[i]? = some (k, RpcName.stopDaemon)

theorem issuesOf_stopProgram (n k : ℕ) :
    issuesOf (stopProgram n k) = (List.range' 1 n).map (·, RpcName.stopDaemon) :=
  issuesOf_asyncCalls _ _ _ _

/-- **The program waits for every call it issues, in order.** -/
theorem waitsOf_benchProgram (test : String) (n reps : ℕ) :
    waitsOf (benchProgram test n reps)
      = List.range' 0 ((issuesOf (testProgram test n reps)).length + n) := by
  obtain ⟨targets, rpc, -, hissues, hwaits⟩ := plainCalls_testProgram test n reps
  have hstops : waitsOf (stopProgram n targets.length) = List.range' (0 + targets.length) n := by
    rw [stopProgram, waitsOf_asyncCalls, List.length_range', Nat.zero_add]
  rw [benchProgram, waitsOf_append, hwaits, hissues, List.length_map, hstops,
    List.range'_append_1]

/-- **The `RpcStopDaemon` call to a node is the one its place in the loop gives it.** -/
theorem getElem?_issuesOf_benchProgram {i k : ℕ} :
    (issuesOf (benchProgram test n reps))[i]? = some (k, RpcName.stopDaemon) ↔
      1 ≤ k ∧ k ≤ n ∧ i = (issuesOf (testProgram test n reps)).length + (k - 1) := by
  obtain ⟨targets, rpc, hrpc, hissues, -⟩ := plainCalls_testProgram test n reps
  rw [benchProgram, issuesOf_append, issuesOf_stopProgram, List.getElem?_append]
  split
  · rename_i hlt
    refine iff_of_false ?_ fun h => by omega
    intro hget
    rw [hissues, List.getElem?_map, Option.map_eq_some_iff] at hget
    obtain ⟨target, -, hkey⟩ := hget
    exact hrpc (Prod.mk.inj hkey).2
  · rename_i hge
    rw [List.getElem?_map, Option.map_eq_some_iff]
    constructor
    · rintro ⟨target, hget, hkey⟩
      obtain ⟨hi, htarget⟩ := List.getElem?_eq_some_iff.mp hget
      rw [List.getElem_range'] at htarget
      rw [List.length_range'] at hi
      have hk : target = k := (Prod.mk.inj hkey).1
      omega
    · rintro ⟨hk, hkn, hi⟩
      refine ⟨k, ?_, rfl⟩
      rw [List.getElem?_range' (by omega)]
      exact congrArg some (by omega)

/-- The last instruction of the program is the wait for the last node. -/
theorem benchProgram_eq_concat (test : String) (reps : ℕ) (hn : 1 ≤ n) :
    ∃ front, benchProgram test n reps
    = front ++ [.wait ((issuesOf (testProgram test n reps)).length + (n - 1)) .unguarded] := by
  obtain ⟨m, rfl⟩ : ∃ m, n = m + 1 := ⟨n - 1, by omega⟩
  have hwaits : List.range' (issuesOf (testProgram test (m + 1) reps)).length (m + 1)
      = List.range' (issuesOf (testProgram test (m + 1) reps)).length m ++
        [(issuesOf (testProgram test (m + 1) reps)).length + m] := by
    rw [List.range'_concat, Nat.one_mul]
  refine ⟨testProgram test (m + 1) reps ++ ((List.range' 1 (m + 1)).map (.issue · .stopDaemon) ++
    (List.range' (issuesOf (testProgram test (m + 1) reps)).length m).map (.wait · .unguarded)), ?_⟩
  rw [benchProgram, stopProgram, asyncCalls, List.length_range', hwaits, List.map_append,
    ← List.append_assoc, ← List.append_assoc, ← List.append_assoc]
  rfl

/-- **A wait before node 1 is not behind it**: every call is waited for once. -/
theorem Progress.not_mem_waitsOf (h : Progress (benchProgram test n reps) s past left) {i : ℕ}
    {guard : Guard} (hwait : .wait i guard ∈ left) : i ∉ waitsOf past := by
  have hnodup : (waitsOf (benchProgram test n reps)).Nodup := by
    rw [waitsOf_benchProgram]
    exact List.nodup_range'
  rw [h.split, waitsOf_append] at hnodup
  exact fun hpast => List.disjoint_of_nodup_append hnodup hpast
    (List.mem_filterMap.mpr ⟨_, hwait, rfl⟩)

/-- **Where the response of the last node is collected, nothing is left**: its wait is the last
instruction, and every call is waited for once. -/
theorem left_eq_nil_of_collected (hn : 1 ≤ n) (h : Progress (benchProgram test n reps) s past left)
    (hcollected : (issuesOf (testProgram test n reps)).length + (n - 1) ∈ s.collected) :
    left = [] := by
  by_contra hleft
  obtain ⟨front, hconcat⟩ := benchProgram_eq_concat test reps hn
  have hlast : .wait ((issuesOf (testProgram test n reps)).length + (n - 1)) .unguarded ∈ left := by
    have hget := congrArg List.getLast? (h.split.symm.trans hconcat)
    rw [List.getLast?_append, List.getLast?_append, List.getLast?_singleton,
      List.getLast?_eq_getLast_of_ne_nil hleft] at hget
    exact Option.some.inj hget ▸ List.getLast_mem hleft
  exact h.not_mem_waitsOf hlast (h.collected _ hcollected)

/-- A call issued is a call of the program, in its place. -/
theorem Progress.getElem?_issuesOf (h : Progress (benchProgram test n reps) s past left) {i : ℕ}
    {key : ℕ × RpcName} (hkey : (s.calls.map RpcCall.key)[i]? = some key) :
    (issuesOf (benchProgram test n reps))[i]? = some key := by
  rw [h.issued] at hkey
  rw [h.split, issuesOf_append, List.getElem?_append_left (List.getElem?_eq_some_iff.mp hkey).1,
    hkey]

/-- **The responses of all nodes are collected exactly when the program is finished.** -/
theorem allCollected_iff (hn : 1 ≤ n) (h : Progress (benchProgram test n reps) s past left) :
    AllCollected n s ↔ s.main = some [] := by
  constructor
  · intro hall
    obtain ⟨i, hi, hkey⟩ := hall n hn le_rfl
    obtain ⟨-, -, rfl⟩ := getElem?_issuesOf_benchProgram.mp (h.getElem?_issuesOf hkey)
    have hnil : left = [] := left_eq_nil_of_collected hn h hi
    rcases h.main with hmain | ⟨-, hne⟩
    · exact hnil ▸ hmain
    · exact absurd hnil hne
  · intro hmain k hk hkn
    obtain rfl := h.left_eq hmain
    have hpast : past = benchProgram test n reps := by rw [h.split, List.append_nil]
    refine ⟨(issuesOf (testProgram test n reps)).length + (k - 1), h.waited _ ?_, ?_⟩
    · rw [hpast, benchProgram, stopProgram, asyncCalls, List.length_range']
      refine List.mem_append_right _ (List.mem_append_right _ (List.mem_map_of_mem ?_))
      exact List.mem_range'_1.mpr ⟨by omega, by omega⟩
    · rw [h.issued, hpast]
      exact getElem?_issuesOf_benchProgram.mpr ⟨hk, hkn, rfl⟩

/-- Calls issued stay issued, and responses collected stay collected. -/
theorem AllCollected.mono (h : AllCollected n s) {more : List (ℕ × RpcName)}
    (hcalls : s'.calls.map RpcCall.key = s.calls.map RpcCall.key ++ more)
    (hcollected : ∀ i ∈ s.collected, i ∈ s'.collected) : AllCollected n s' := by
  intro k hk hkn
  obtain ⟨i, hi, hkey⟩ := h k hk hkn
  refine ⟨i, hcollected i hi, ?_⟩
  rw [hcalls, List.getElem?_append_left (List.getElem?_eq_some_iff.mp hkey).1, hkey]

theorem AllCollected.moves {a : Action} (h : AllCollected n s) (hmoves : Moves n s a s') :
    AllCollected n s' := by
  rcases eq_or_ne a .main with rfl | ha
  · cases hmoves with
    | issue _ _ _ => exact h.mono List.map_append fun _ hi => hi
    | collect _ _ => exact h.mono (List.append_nil _).symm fun _ hi => List.mem_append_left _ hi
    | raise _ _ => exact h.mono (List.append_nil _).symm fun _ hi => hi
    | misuse _ _ => exact h.mono (List.append_nil _).symm fun _ hi => hi
  · obtain ⟨hcalls, -, hcollected⟩ := hmoves.frame ha
    exact h.mono (hcalls.trans (List.append_nil _).symm) fun _ hi => hcollected ▸ hi

end Finish

/-! ## The caller and its own handler -/

/-- **Shutdown has not cut off the caller**: where node 1's client engine is finalized, all calls
are issued through it and all responses collected. -/
def ShutdownSafe (n : ℕ) (s : System) : Prop :=
  (s.nodes 1).client = .finalized → AllCollected n s

/-- **Shutdown never cuts off the caller** in a run: it has not in any state, and node 1's program
takes no step through a finalized engine. -/
def CallerNotCutOff (test : String) (n reps : ℕ) (run : List Action) : Prop :=
  EveryState (step n) (ShutdownSafe n) (initial test n reps) run ∧
    EveryStep (step n) (fun s a => a = .main → (s.nodes 1).client ≠ .finalized)
      (initial test n reps) run

/-- The step is node 1's handler of `RpcStopDaemon` at `client_engine_->finalize()`. -/
def FinalizesCaller (s : System) (a : Action) : Prop :=
  ∃ i call, a = .handle i ∧ s.calls[i]? = some call ∧ call.target = 1 ∧
    call.rpc = .stopDaemon ∧ call.handler = .responded

section Caller

variable {test : String} {n reps : ℕ} {s s' : System}

/-- `main` of a node finalizes no client engine. -/
theorem client_advance {node node' : NodeState} {sleepOver : Bool}
    (h : node.advance sleepOver = some node') (hclient : node'.client = .finalized) :
    node.client = .finalized := by
  cases advances_of_advance h with
  | makeClient => cases hclient
  | _ => exact hclient

/-- **Only its own handler finalizes the caller's client engine.** -/
theorem client_moves {a : Action} (hmoves : Moves n s a s') (ha : ¬ FinalizesCaller s a)
    (hclient : (s'.nodes 1).client = .finalized) : (s.nodes 1).client = .finalized := by
  have hnode := hmoves.node 1
  generalize s'.nodes 1 = node at hnode hclient
  cases hnode with
  | same => exact hclient
  | advance hadvance => exact client_advance hadvance hclient
  | finalizeClient hcall hkey hhandler =>
    obtain ⟨htarget, hrpc⟩ := Prod.mk.inj hkey
    exact absurd ⟨_, _, rfl, hcall, htarget, hrpc, hhandler⟩ ha
  | finalizeServer _ _ _ => exact hclient

/-- What that step of its handler leaves of the caller. -/
theorem finalized_of_finalizesCaller {a : Action} (ha : FinalizesCaller s a)
    (h : step n s a = some s') :
    (s'.nodes 1).client = .finalized ∧ (AllCollected n s' → AllCollected n s) := by
  obtain ⟨i, call, rfl, hcall, htarget, hrpc, hhandler⟩ := ha
  cases moves_of_step h with
  | respond hcall' hhandler' =>
    obtain rfl := Option.some.inj (hcall.symm.trans hcall')
    exact absurd (hhandler.symm.trans hhandler') nofun
  | finalizeClient hcall' _ _ =>
    obtain rfl := Option.some.inj (hcall.symm.trans hcall')
    have hkeys : (s.setCall i { call with handler := .clientFinalized }).calls.map RpcCall.key
        = s.calls.map RpcCall.key := map_key_setCall hcall rfl
    exact ⟨by rw [htarget, System.nodes_setNode_self],
      fun hall => hall.mono (hkeys.symm.trans (List.append_nil _).symm) fun _ hi => hi⟩
  | finalizeServer hcall' hhandler' _ =>
    obtain rfl := Option.some.inj (hcall.symm.trans hcall')
    exact absurd (hhandler.symm.trans hhandler') nofun

/-- **A step keeps the caller safe exactly if it does not finalize its client engine early.** -/
theorem shutdownSafe_step_iff {past left : List Instr} {a : Action} (hn : 1 ≤ n)
    (hprogress : Progress (benchProgram test n reps) s past left) (hsafe : ShutdownSafe n s)
    (h : step n s a = some s') :
    ShutdownSafe n s' ↔ (FinalizesCaller s a → s.main = some []) := by
  rw [← allCollected_iff hn hprogress]
  have hmoves := moves_of_step h
  by_cases ha : FinalizesCaller s a
  · obtain ⟨hclient, hback⟩ := finalized_of_finalizesCaller ha h
    exact ⟨fun hsafe' _ => hback (hsafe' hclient), fun hall _ => (hall ha).moves hmoves⟩
  · exact ⟨fun _ hfinal => absurd hfinal ha,
      fun _ hclient => (hsafe (client_moves hmoves ha hclient)).moves hmoves⟩

theorem progress_initial (test : String) (n reps : ℕ) :
    Progress (benchProgram test n reps) (initial test n reps) [] (benchProgram test n reps) where
  split := rfl
  issued := rfl
  collected _ hi := absurd hi List.not_mem_nil
  waited _ hi := absurd hi List.not_mem_nil
  main := Or.inl rfl

end Caller

/-- **When shutdown never cuts off the caller**: exactly in the runs in which node 1's handler of
`RpcStopDaemon` finalizes the client engine only after node 1's program is finished.  Nothing in
the program orders the two. -/
theorem callerNotCutOff_iff (test : String) (n reps : ℕ) (hn : 1 ≤ n) (run : List Action) :
    CallerNotCutOff test n reps run ↔
      EveryStep (step n) (fun s a => FinalizesCaller s a → s.main = some [])
        (initial test n reps) run := by
  have hprogress : ∀ s a s', (∃ past left, Progress (benchProgram test n reps) s past left) →
      step n s a = some s' → ∃ past left, Progress (benchProgram test n reps) s' past left :=
    fun s a s' ⟨past, left, h⟩ hstep => progress_moves h (moves_of_step hstep)
  have hinitial : ∃ past left,
      Progress (benchProgram test n reps) (initial test n reps) past left :=
    ⟨_, _, progress_initial test n reps⟩
  have hsafe : ShutdownSafe n (initial test n reps) := fun hclient => absurd hclient nofun
  have hiff : EveryState (step n) (ShutdownSafe n) (initial test n reps) run ↔
      EveryStep (step n) (fun s a => FinalizesCaller s a → s.main = some [])
        (initial test n reps) run :=
    everyState_iff_everyStep hprogress
      (fun s a s' ⟨_, _, h⟩ hs hstep => shutdownSafe_step_iff hn h hs hstep) hinitial hsafe
  refine ⟨fun h => hiff.mp h.1, fun h => ⟨hiff.mpr h, ?_⟩⟩
  have hboth : EveryState (step n) (fun s => ShutdownSafe n s ∧
      ∃ past left, Progress (benchProgram test n reps) s past left) (initial test n reps) run :=
    everyState_of_everyStep (fun s a s' ⟨hs, past, left, hp⟩ hC hstep =>
      ⟨(shutdownSafe_step_iff hn hp hs hstep).mpr hC, hprogress s a s' ⟨past, left, hp⟩ hstep⟩)
      ⟨hsafe, hinitial⟩ h
  refine everyStep_of_everyState ?_ hboth
  rintro s a s' ⟨hs, past, left, hp⟩ hstep rfl hclient
  have hdone : s.main = some [] := (allCollected_iff hn hp).mp (hs hclient)
  simp [step, hdone] at hstep

/-- Three steps of `main` on every node: `ThalliumRpc::ServerInit` the first time, the constructor
of `TestRunner` the second. -/
def advanceAll (n : ℕ) : List Action :=
  (List.range' 1 n).flatMap fun k => [.advance k, .advance k, .advance k]

/-- A synchronous call, number `i`, undisturbed. -/
def syncRound (i : ℕ) : List Action := [.main, .deliver i, .handle i, .receive i, .main]

/-- One node that pings itself and stops itself, its handler waiting for its program and its process
for its handler. -/
def patientRun : List Action :=
  advanceAll 1 ++ advanceAll 1 ++ syncRound 0 ++ syncRound 1 ++ [.handle 1, .handle 1, .exit]

theorem callerNotCutOff_iff_patientRun :
    CallerNotCutOff "ping" 1 1 patientRun ↔
      EveryStep (step 1) (fun s a => FinalizesCaller s a → s.main = some [])
        (initial "ping" 1 1) patientRun :=
  callerNotCutOff_iff "ping" 1 1 le_rfl patientRun

/-- Two nodes, both pinged; then node 1's handler outruns its program. -/
def cutOffRun : List Action :=
  advanceAll 2 ++ advanceAll 2 ++ syncRound 0 ++ syncRound 1 ++
    [.main, .deliver 2, .handle 2, .handle 2]

/-- **Node 1's client engine is finalized while the call to node 2 is still to be issued.** -/
theorem not_callerNotCutOff_cutOffRun :
    (exec (step 2) (initial "ping" 2 1) cutOffRun).map
        (fun s => ((s.nodes 1).client, s.calls.map RpcCall.key, s.collected))
      = some (.finalized, [(1, .ping), (2, .ping), (1, .stopDaemon)], [0, 1]) ∧
    ¬ CallerNotCutOff "ping" 2 1 cutOffRun := by
  have hend : (exec (step 2) (initial "ping" 2 1) cutOffRun).map
      (fun s => ((s.nodes 1).client, s.calls.map RpcCall.key, s.collected))
      = some (.finalized, [(1, .ping), (2, .ping), (1, .stopDaemon)], [0, 1]) := by decide
  refine ⟨hend, fun hrun => ?_⟩
  obtain ⟨s, hexec, hs⟩ := Option.map_eq_some_iff.mp hend
  simp only [Prod.mk.injEq] at hs
  obtain ⟨hclient, hcalls, -⟩ := hs
  obtain ⟨i, -, hkey⟩ := hrun.1.last hexec hclient 2 (by decide) le_rfl
  rw [hcalls] at hkey
  exact absurd (List.mem_of_getElem? hkey) (by decide)

end ChiNettest
