import ChiNettest.Bench.Engines
import ChiNettest.Bench.Termination

/-!
# Bench/Completion — where the runs of a benchmark come to rest

Where a run can go no further, node 1's process has ended, and every other node has finished its
constructor or was stopped before it had: no state of a run is a deadlock (`atRest_of_stuck`).  What
it has stopped of the other nodes is what node 1 has called `RpcStopDaemon` on, so where the process
ended early the rest of the daemons run on.

What ends it early is an `RpcPing` or `RpcTaskSubmit` that is rejected, or node 1's own handler of
`RpcStopDaemon`.  Where every call is issued in time and that handler waits for the program, neither
happens, and a run can only come to rest with every response collected and every other daemon
stopped (`finished_of_inTime`).  Node 1's own engines need not be finalized by then: its process
ends when `main` returns, whatever its handler has come to (`hurriedRun`).

Nor does a node that has been stopped wait for its other handlers: its `main` returns from
`RunDaemon`.  So they may go on or not (`Lingers`), and a run comes to rest where nobody else can do
anything.
-/

namespace ChiNettest

/-! ## Waits stand behind their calls -/

/-- Every wait of a program is for a call issued before it, `k` calls being issued before all of
it. -/
def WaitsBehind : ℕ → List Instr → Prop
  | _, [] => True
  | k, .issue _ _ :: prog => WaitsBehind (k + 1) prog
  | k, .wait i _ :: prog => i < k ∧ WaitsBehind k prog

theorem waitsBehind_append : ∀ (prog prog' : List Instr) (k : ℕ),
    WaitsBehind k (prog ++ prog') ↔
      WaitsBehind k prog ∧ WaitsBehind (k + (issuesOf prog).length) prog'
  | [], prog', k => (iff_of_eq (true_and _)).symm
  | .issue target rpc :: prog, prog', k => by
      have hlen : k + (issuesOf (.issue target rpc :: prog)).length
          = k + 1 + (issuesOf prog).length := by
        change k + ((issuesOf prog).length + 1) = _
        omega
      rw [hlen]
      exact waitsBehind_append prog prog' (k + 1)
  | .wait i guard :: prog, prog', k => by
      have hrest := waitsBehind_append prog prog' k
      exact (and_congr_right' hrest).trans and_assoc.symm

theorem waitsBehind_syncCalls (rpc : RpcName) (guard : Guard) : ∀ (targets : List ℕ) (k : ℕ),
    WaitsBehind k (syncCalls rpc guard targets k)
  | [], _ => trivial
  | _ :: targets, k => ⟨Nat.lt_succ_self k, waitsBehind_syncCalls rpc guard targets (k + 1)⟩

theorem waitsBehind_issues (rpc : RpcName) : ∀ (targets : List ℕ) (k : ℕ),
    WaitsBehind k (targets.map (Instr.issue · rpc))
  | [], _ => trivial
  | _ :: targets, k => waitsBehind_issues rpc targets (k + 1)

theorem waitsBehind_waits (guard : Guard) : ∀ {calls : List ℕ} {k : ℕ}, (∀ i ∈ calls, i < k) →
    WaitsBehind k (calls.map (Instr.wait · guard))
  | [], _, _ => trivial
  | i :: _, _, h => ⟨h i List.mem_cons_self,
      waitsBehind_waits guard fun j hj => h j (List.mem_cons_of_mem i hj)⟩

theorem waitsBehind_asyncCalls (rpc : RpcName) (guard : Guard) (targets : List ℕ) (k : ℕ) :
    WaitsBehind k (asyncCalls rpc guard targets k) := by
  refine (waitsBehind_append _ _ _).mpr
    ⟨waitsBehind_issues rpc targets k, waitsBehind_waits guard fun i hi => ?_⟩
  have hlen : (issuesOf (targets.map (Instr.issue · rpc))).length = targets.length := by
    rw [issuesOf, List.filterMap_map, List.length_filterMap_eq_countP]
    exact List.countP_eq_length.mpr fun _ _ => rfl
  rw [hlen]
  obtain ⟨-, hlt⟩ := List.mem_range'_1.mp hi
  omega

theorem waitsBehind_testProgram (test : String) (n reps : ℕ) :
    WaitsBehind 0 (testProgram test n reps) := by
  rw [testProgram]
  split_ifs
  · exact waitsBehind_syncCalls _ _ _ _
  · exact waitsBehind_asyncCalls _ _ _ _
  · exact waitsBehind_syncCalls _ _ _ _
  · exact waitsBehind_asyncCalls _ _ _ _
  · exact waitsBehind_syncCalls _ _ _ _
  · exact waitsBehind_asyncCalls _ _ _ _
  · trivial

/-- **Node 1 waits for no call it has not issued.** -/
theorem waitsBehind_benchProgram (test : String) (n reps : ℕ) :
    WaitsBehind 0 (benchProgram test n reps) := by
  refine (waitsBehind_append _ _ _).mpr ⟨waitsBehind_testProgram test n reps, ?_⟩
  rw [Nat.zero_add]
  exact waitsBehind_asyncCalls _ _ _ _

/-! ## A run that can go no further -/

section AtRest

variable {test : String} {n reps : ℕ} {s : System}

/-- A step that need not be taken: that of a handler of a node that has been stopped. -/
def Lingers (s : System) (a : Action) : Prop :=
  ∃ i call, a = .handle i ∧ s.calls[i]? = some call ∧ (s.nodes call.target).server = .finalized

/-- **The system has come to rest**: every constructor is finished, or that of a node other than
node 1 has failed because the node had been stopped; node 1's process has ended, by returning from
`main` or early; every test call to another node has been rejected or answered, but for those whose
handler the node was stopped under; and the other daemons stopped are those node 1 has called
`RpcStopDaemon` on. -/
structure AtRest (n : ℕ) (s : System) : Prop where
  constructed : ∀ k, 1 ≤ k → k ≤ n → (s.nodes k).stage = .constructed ∨
    k ≠ 1 ∧ (s.nodes k).stage = .aborted ∧ (k, RpcName.stopDaemon) ∈ s.calls.map RpcCall.key
  main : s.main = some [] ∧ s.exited = true ∨ s.main = none
  handled : ∀ call ∈ s.calls, call.target ≠ 1 → call.rpc ≠ .stopDaemon →
    call.handler = .rejected ∨ call.handler = .responded ∨
      call.handler = .running ∧ (s.nodes call.target).server = .finalized
  stopped : ∀ k, k ≠ 1 → ((s.nodes k).server = .finalized ↔
    (k, RpcName.stopDaemon) ∈ s.calls.map RpcCall.key)

/-- A node that is not past its constructor goes on, unless it sleeps. -/
theorem step_advance_ne_none {k : ℕ} (hk : 1 ≤ k) (hkn : k ≤ n)
    (hstage : (s.nodes k).stage ≠ .constructed) (hthere : (s.nodes k).stage ≠ .aborted)
    (hover : (s.nodes k).stage = .asleep → s.sleepOver n = true) :
    step n s (.advance k) ≠ none := by
  rw [step, if_pos ⟨hk, hkn⟩, NodeState.advance]
  cases hs : (s.nodes k).stage with
  | asleep => rw [if_pos (hover hs)]; simp
  | constructed => exact absurd hs hstage
  | aborted => exact absurd hs hthere
  | _ => simp

/-- **Every constructor gets to its end**, or fails. -/
theorem constructed_of_stuck (hadvance : ∀ k, step n s (.advance k) = none) {k : ℕ} (hk : 1 ≤ k)
    (hkn : k ≤ n) : (s.nodes k).stage = .constructed ∨ (s.nodes k).stage = .aborted := by
  have hdone : ∀ j, 1 ≤ j → j ≤ n → (s.nodes j).stage.serverInitDone := by
    intro j hj hjn
    by_contra hnot
    refine step_advance_ne_none hj hjn (fun hstage => ?_) (fun hstage => ?_) (fun hstage => ?_)
      (hadvance j) <;>
    · rw [hstage] at hnot
      exact absurd rfl hnot
  have hover : s.sleepOver n = true := by
    refine List.all_eq_true.mpr fun j hj => ?_
    obtain ⟨hj, hjn⟩ := List.mem_range'_1.mp hj
    exact hdone j hj (by omega)
  by_contra hstage
  obtain ⟨hconstructed, hthere⟩ := not_or.mp hstage
  exact step_advance_ne_none hk hkn hconstructed hthere (fun _ => hover) (hadvance k)

/-- A node whose constructor has failed had been stopped. -/
theorem OnCourse.stopped_of_aborted (h : OnCourse test n reps s) {k : ℕ}
    (haborted : (s.nodes k).stage = .aborted) : (s.nodes k).server = .finalized ∧
      (k, RpcName.stopDaemon) ∈ s.calls.map RpcCall.key := by
  have hserver := (h.underway.equipped k).aborted haborted
  exact ⟨hserver, h.underway.stopped k hserver⟩

/-- The constructor of node 1 does not fail: until it is finished, nobody is stopped. -/
theorem OnCourse.one_ne_aborted (h : OnCourse test n reps s) : (s.nodes 1).stage ≠ .aborted := by
  intro haborted
  obtain ⟨-, hstop⟩ := h.stopped_of_aborted haborted
  have hcalls : s.calls ≠ [] := fun hnil => by
    rw [hnil] at hstop
    exact absurd hstop List.not_mem_nil
  have hstage := h.underway.caller hcalls
  rw [haborted] at hstage
  cases hstage

section Call

variable {i : ℕ} {call : RpcCall}

/-- A call arrives, unless node 1's process has ended and it is for that. -/
theorem ne_sent_of_stuck (hcall : s.calls[i]? = some call) (hthere : call.target = 1 → s.Running)
    (hdeliver : step n s (.deliver i) = none) : call.handler ≠ .sent := by
  intro hsent
  simp only [step, hcall] at hdeliver
  rw [if_pos ⟨hsent, hthere⟩] at hdeliver
  cases hdeliver

/-- A call to a process that is there arrives, and is answered. -/
theorem answered_of_stuck (hcall : s.calls[i]? = some call) (hpresent : s.Present call.target)
    (hdeliver : step n s (.deliver i) = none)
    (hhandle : call.handler = .running → step n s (.handle i) = none) :
    System.Answered call := by
  constructor
  · exact ne_sent_of_stuck hcall hpresent.1 hdeliver
  · intro hrunning
    have hnone := hhandle hrunning
    simp only [step, hcall] at hnone
    rw [if_pos hpresent] at hnone
    simp [System.runHandler, hrunning] at hnone

/-- The handler of `RpcStopDaemon` gets to its end. -/
theorem serverFinalized_of_stuck (hcall : s.calls[i]? = some call)
    (hpresent : s.Present call.target) (hanswered : System.Answered call)
    (hrpc : call.rpc = .stopDaemon) (haccepted : call.handler ≠ .rejected)
    (hhandle : step n s (.handle i) = none) : call.handler = .serverFinalized := by
  simp only [step, hcall] at hhandle
  rw [if_pos hpresent] at hhandle
  cases hhandler : call.handler with
  | sent => exact absurd hhandler hanswered.1
  | rejected => exact absurd hhandler haccepted
  | running => exact absurd hhandler hanswered.2
  | responded => simp [System.runHandler, hhandler, hrpc] at hhandle
  | clientFinalized => simp [System.runHandler, hhandler, hrpc] at hhandle
  | serverFinalized => rfl

end Call

/-- Every call to a process that is there and not stopped has been answered. -/
def System.AllAnswered (s : System) : Prop :=
  ∀ call ∈ s.calls, s.Present call.target → (s.nodes call.target).server ≠ .finalized →
    System.Answered call

/-- A program with more calls behind it than its first part has that part behind it. -/
theorem prefix_of_lt_issues {past left p q : List Instr} (h : p ++ q = past ++ left)
    (hlt : (issuesOf p).length < (issuesOf past).length) : p <+: past := by
  rcases List.append_eq_append_iff.mp h with ⟨r, hpast, -⟩ | ⟨r, hp, -⟩
  · exact ⟨r, hpast.symm⟩
  · rw [hp, issuesOf_append, List.length_append] at hlt
    omega

/-- **Node 1 stops no node before it is through its test**: the waits for the test calls are behind
it. -/
theorem Progress.mem_waitsOf {past left : List Instr}
    (h : Progress (benchProgram test n reps) s past left) {k i : ℕ} {call : RpcCall}
    (hstop : (k, RpcName.stopDaemon) ∈ s.calls.map RpcCall.key) (hcall : s.calls[i]? = some call)
    (hrpc : call.rpc ≠ .stopDaemon) : i ∈ waitsOf past := by
  obtain ⟨j, hj⟩ := List.mem_iff_getElem?.mp hstop
  obtain ⟨-, -, hplace⟩ := getElem?_issuesOf_benchProgram.mp (h.getElem?_issuesOf hj)
  have hjlt : j < (issuesOf past).length := by
    rw [← h.issued]
    exact (List.getElem?_eq_some_iff.mp hj).1
  have htest : testProgram test n reps <+: past :=
    prefix_of_lt_issues h.split (by omega)
  have hi : i < (issuesOf (testProgram test n reps)).length := by
    by_contra hge
    have hissued : (s.calls.map RpcCall.key)[i]? = some call.key := by
      rw [List.getElem?_map, hcall, Option.map_some]
    have hkey := h.getElem?_issuesOf hissued
    rw [benchProgram, issuesOf_append, List.getElem?_append_right (by omega),
      issuesOf_stopProgram, List.getElem?_map, Option.map_eq_some_iff] at hkey
    obtain ⟨target, -, hkey⟩ := hkey
    exact hrpc (Prod.mk.inj hkey).2.symm
  obtain ⟨targets, rpc, -, hissues, hwaits⟩ := plainCalls_testProgram test n reps
  obtain ⟨rest, rfl⟩ := htest
  rw [waitsOf_append, hwaits]
  rw [hissues, List.length_map] at hi
  exact List.mem_append_left _ (List.mem_range'_1.mpr ⟨Nat.zero_le i, by omega⟩)

/-- **A response node 1 is about to wait for has been sent**, where the others can do nothing: its
call is one to a process that is there, or the one that has stopped its node. -/
theorem OnCourse.answered_of_wait (h : OnCourse test n reps s) {past rest : List Instr} {i : ℕ}
    {guard : Guard} {call : RpcCall}
    (hprogress : Progress (benchProgram test n reps) s past (.wait i guard :: rest))
    (hcall : s.calls[i]? = some call) (hrunning : s.Running) (hanswered : s.AllAnswered) :
    System.Answered call := by
  by_cases hserver : (s.nodes call.target).server = .finalized
  · have hstop := h.underway.stopped _ hserver
    by_cases hrpc : call.rpc = .stopDaemon
    · obtain ⟨call', hmem', hkey', hfinal⟩ := (h.engines.server _).mp hserver
      obtain ⟨j, hj⟩ := List.mem_iff_getElem?.mp hmem'
      obtain rfl := stop_unique hprogress hcall hj (congrArg (Prod.mk call.target) hrpc) hkey'
      obtain rfl := Option.some.inj (hcall.symm.trans hj)
      exact ⟨by simp [hfinal], by simp [hfinal]⟩
    · exact absurd (hprogress.mem_waitsOf hstop hcall hrpc)
        (hprogress.not_mem_waitsOf List.mem_cons_self)
  · have hthere : (s.nodes call.target).stage ≠ .aborted := fun haborted =>
      hserver (h.stopped_of_aborted haborted).1
    exact hanswered call (List.mem_of_getElem? hcall) ⟨fun _ => hrunning, hthere⟩ hserver

/-- **Node 1 waits for nothing**: a wait of its program is for a call it has issued, and where its
response has been sent and none can arrive, it has arrived.  Once through its program it returns. -/
theorem main_of_stuck (h : OnCourse test n reps s) (hstage : (s.nodes 1).stage = .constructed)
    (hmain : step n s .main = none) (hexit : step n s .exit = none)
    (hreceive : ∀ i, step n s (.receive i) = none) (hanswered : s.AllAnswered) :
    s.main = some [] ∧ s.exited = true ∨ s.main = none := by
  obtain ⟨past, left, hprogress⟩ := h.progress
  cases hprog : s.main with
  | none => exact Or.inr rfl
  | some instrs =>
    cases instrs with
    | nil =>
      refine Or.inl ⟨rfl, ?_⟩
      by_contra hexited
      rw [step, if_pos ⟨hstage, hprog, by simpa using hexited⟩] at hexit
      cases hexit
    | cons instr rest =>
      exfalso
      have hrunning : s.Running := by
        refine ⟨by rw [hprog]; rfl, Bool.eq_false_iff.mpr fun hexited => ?_⟩
        rw [h.underway.exited hexited] at hprog
        cases hprog
      simp only [step, if_pos hstage, hprog] at hmain
      by_cases hlive : (s.nodes 1).client = .live
      · rw [if_pos hlive] at hmain
        cases instr with
        | issue target rpc => simp [System.runInstr] at hmain
        | wait i guard =>
          have hleft := hprogress.left_eq hprog
          rw [hleft] at hprogress
          have hi : i < s.calls.length := by
            have hbehind := waitsBehind_benchProgram test n reps
            rw [hprogress.split] at hbehind
            have hlt : i < 0 + (issuesOf past).length := ((waitsBehind_append _ _ _).mp hbehind).2.1
            rwa [Nat.zero_add, ← hprogress.issued, List.length_map] at hlt
          have hcall : s.calls[i]? = some s.calls[i] := List.getElem?_eq_getElem hi
          have hreceived : s.calls[i].received = true := by
            have hnone := hreceive i
            simp only [step, hcall] at hnone
            by_contra hnot
            have hsent := h.answered_of_wait hprogress hcall hrunning hanswered
            rw [if_pos ⟨hsent, hnot, hlive, hrunning⟩] at hnone
            cases hnone
          simp only [System.runInstr, hcall, hreceived, if_true] at hmain
          split at hmain <;> cases hmain
      · rw [if_neg hlive] at hmain
        cases hmain

/-- **A daemon is stopped exactly if node 1 has called `RpcStopDaemon` on it**, once the handler of
that call can do nothing. -/
theorem stopped_of_stuck (h : OnCourse test n reps s) {k : ℕ} (hother : k ≠ 1)
    (hanswered : s.AllAnswered)
    (hhandle : ∀ i, ¬ Lingers s (.handle i) → step n s (.handle i) = none) :
    (s.nodes k).server = .finalized ↔ (k, RpcName.stopDaemon) ∈ s.calls.map RpcCall.key := by
  constructor
  · exact h.underway.stopped k
  · intro hmem
    by_contra hserver
    have hpresent : s.Present k := ⟨fun hk => absurd hk hother, fun haborted =>
      hserver (h.stopped_of_aborted haborted).1⟩
    obtain ⟨call, hcall, hkey⟩ := List.mem_map.mp hmem
    obtain ⟨rfl, hrpc⟩ := Prod.mk.inj hkey
    obtain ⟨i, hi⟩ := List.mem_iff_getElem?.mp hcall
    have hgoes : ¬ Lingers s (.handle i) := by
      rintro ⟨j, call', hj, hcall', hserver'⟩
      obtain rfl := Action.handle.inj hj
      obtain rfl := Option.some.inj (hi.symm.trans hcall')
      exact hserver hserver'
    have hfinal := serverFinalized_of_stuck hi hpresent (hanswered call hcall hpresent hserver)
      hrpc ((h.engines.fits call hcall).1 hrpc) (hhandle i hgoes)
    exact hserver ((h.engines.server _).mpr ⟨call, hcall, hkey, hfinal⟩)

end AtRest

/-- **No run of a benchmark gets stuck half-way.**  Where nothing can be done but by handlers of
nodes that have been stopped, the system has come to rest: the constructors are finished, or have
failed where the node had been stopped; node 1's process has ended; the test calls to other nodes
are rejected or answered, but for those whose handler the node was stopped under; and the other
daemons stopped are those node 1 has called `RpcStopDaemon` on. -/
theorem atRest_of_stuck (test : String) (n reps : ℕ) (hn : 1 ≤ n) (run : List Action) (s : System)
    (h : exec (step n) (initial test n reps) run = some s)
    (hstuck : ∀ a, ¬ Lingers s a → step n s a = none) : AtRest n s := by
  have hcourse := onCourse_of_exec h
  have hnone : ∀ {a : Action}, (∀ i, a ≠ .handle i) → step n s a = none := fun ha =>
    hstuck _ fun ⟨i, _, hi, _⟩ => ha i hi
  have hhandle : ∀ {i : ℕ} {call : RpcCall}, s.calls[i]? = some call →
      (s.nodes call.target).server ≠ .finalized → step n s (.handle i) = none := by
    intro i call hcall hserver
    refine hstuck _ fun ⟨j, call', hj, hcall', hserver'⟩ => hserver ?_
    obtain rfl := Action.handle.inj hj
    obtain rfl := Option.some.inj (hcall.symm.trans hcall')
    exact hserver'
  have hstages : ∀ k, 1 ≤ k → k ≤ n →
      (s.nodes k).stage = .constructed ∨ (s.nodes k).stage = .aborted := fun k hk hkn =>
    constructed_of_stuck (fun j => hnone (by simp)) hk hkn
  have hanswered : s.AllAnswered := by
    intro call hcall hpresent hserver
    obtain ⟨i, hi⟩ := List.mem_iff_getElem?.mp hcall
    exact answered_of_stuck hi hpresent (hnone (by simp)) fun _ => hhandle hi hserver
  have hone : (s.nodes 1).stage = .constructed :=
    (hstages 1 le_rfl hn).resolve_right hcourse.one_ne_aborted
  refine ⟨fun k hk hkn => (hstages k hk hkn).imp_right fun haborted => ?_,
    main_of_stuck hcourse hone (hnone (by simp)) (hnone (by simp)) (fun i => hnone (by simp))
      hanswered,
    fun call hcall hother hrpc => ?_,
    fun k hother => stopped_of_stuck hcourse hother hanswered fun i hi => hstuck _ hi⟩
  · exact ⟨fun hk => hcourse.one_ne_aborted (hk ▸ haborted), haborted,
      (hcourse.stopped_of_aborted haborted).2⟩
  · obtain ⟨i, hi⟩ := List.mem_iff_getElem?.mp hcall
    have hthere : call.target = 1 → s.Running := fun hk => absurd hk hother
    obtain ⟨hclient, hserver⟩ := (hcourse.engines.fits call hcall).2 hrpc
    cases hhandler : call.handler with
    | sent => exact absurd hhandler (ne_sent_of_stuck hi hthere (hnone (by simp)))
    | rejected => exact Or.inl rfl
    | responded => exact Or.inr (Or.inl rfl)
    | running =>
      refine Or.inr (Or.inr ⟨rfl, ?_⟩)
      by_contra hlive
      have hpresent : s.Present call.target := ⟨hthere, fun haborted =>
        hlive (hcourse.stopped_of_aborted haborted).1⟩
      exact (hanswered call hcall hpresent hlive).2 hhandler
    | clientFinalized => exact absurd hhandler hclient
    | serverFinalized => exact absurd hhandler hserver

/-! ### A process that ends before its handler -/

/-- The actions a system of `n` nodes can take. -/
def System.actions (n : ℕ) (s : System) : List Action :=
  .main :: .exit :: ((List.range' 1 n).map .advance ++
    (List.range s.calls.length).flatMap fun i => [.deliver i, .handle i, .receive i])

/-- Whether anything can be done is a matter of these. -/
theorem stuck_iff {n : ℕ} {s : System} :
    Stuck (step n) s ↔ ∀ a ∈ s.actions n, (step n s a).isNone := by
  refine ⟨fun h a _ => by rw [h a]; rfl, fun h a => ?_⟩
  have hnone : ∀ {a : Action}, a ∈ s.actions n → step n s a = none :=
    fun ha => Option.isNone_iff_eq_none.mp (h _ ha)
  have hcall : ∀ {i : ℕ}, ¬ i < s.calls.length → s.calls[i]? = none := fun hi =>
    List.getElem?_eq_none (Nat.not_lt.mp hi)
  cases a with
  | main => exact hnone List.mem_cons_self
  | exit => exact hnone (List.mem_cons_of_mem _ List.mem_cons_self)
  | advance k =>
    by_cases hk : 1 ≤ k ∧ k ≤ n
    · exact hnone (by simp [System.actions]; omega)
    · rw [step, if_neg hk]
  | deliver i =>
    by_cases hi : i < s.calls.length
    · exact hnone (by simp [System.actions, hi])
    · rw [step, hcall hi]
  | handle i =>
    by_cases hi : i < s.calls.length
    · exact hnone (by simp [System.actions, hi])
    · rw [step, hcall hi]
  | receive i =>
    by_cases hi : i < s.calls.length
    · exact hnone (by simp [System.actions, hi])
    · rw [step, hcall hi]

instance (n : ℕ) (s : System) : Decidable (Stuck (step n) s) := decidable_of_iff _ stuck_iff.symm

/-- Two nodes, both pinged and stopped in time: the handler of node 2 gets to its end, and node 1's
process ends before its own has finalized anything. -/
def hurriedRun : List Action := timelyRun ++ [.main, .handle 3, .handle 3, .exit]

/-- It leaves nothing to do. -/
theorem exec_hurriedRun : ∃ s, exec (step 2) (initial "ping" 2 1) hurriedRun = some s ∧
    Stuck (step 2) s := by
  have hend : (exec (step 2) (initial "ping" 2 1) hurriedRun).any
      (fun s => Stuck (step 2) s) = true := by decide
  obtain ⟨s, hs, hstuck⟩ := Option.any_eq_true _ _ |>.mp hend
  exact ⟨s, hs, of_decide_eq_true hstuck⟩

theorem atRest_of_stuck_hurriedRun :
    ∃ s, exec (step 2) (initial "ping" 2 1) hurriedRun = some s ∧ AtRest 2 s := by
  obtain ⟨s, hs, hstuck⟩ := exec_hurriedRun
  exact ⟨s, hs, atRest_of_stuck "ping" 2 1 (by decide) hurriedRun s hs fun a _ => hstuck a⟩

/-! ## Runs in which everything is in time -/

/-- **Node 1 has `past` of its program behind it and nothing has gone wrong**: the responses
collected are those `past` waits for, each of them has arrived and was sent before, and no call was
rejected. -/
structure Smooth (full : List Instr) (s : System) (past left : List Instr) : Prop
    extends Progress full s past left where
  running : s.main = some left
  all : s.collected = waitsOf past
  arrived : ∀ i ∈ s.collected, ∃ call, s.calls[i]? = some call ∧ call.received = true
  answered : ∀ call ∈ s.calls, call.received = true → System.Answered call
  accepted : ∀ call ∈ s.calls, call.handler ≠ .rejected

section Smooth

variable {test : String} {n reps : ℕ} {full past left : List Instr} {s s' : System}

/-- A call whose response was collected has been answered. -/
theorem Smooth.answered_of_mem (h : Smooth full s past left) {i : ℕ} {call : RpcCall}
    (hcall : s.calls[i]? = some call) (hi : i ∈ waitsOf past) : System.Answered call := by
  obtain ⟨call', hcall', hreceived⟩ := h.arrived i (h.all ▸ hi)
  obtain rfl := Option.some.inj (hcall.symm.trans hcall')
  exact h.answered call (List.mem_of_getElem? hcall) hreceived

/-- **A test calls the nodes `1, …, n` and no other.** -/
theorem target_of_mem_issues {key : ℕ × RpcName}
    (h : key ∈ issuesOf (benchProgram test n reps)) : 1 ≤ key.1 ∧ key.1 ≤ n := by
  have hrange : ∀ k ∈ List.range' 1 n, 1 ≤ k ∧ k ≤ n := fun k hk => by
    obtain ⟨hk, hkn⟩ := List.mem_range'_1.mp hk
    omega
  have hrepeated : ∀ k ∈ repeatedTargets n reps, 1 ≤ k ∧ k ≤ n := fun k hk => by
    obtain ⟨m, hm, hrep⟩ := List.mem_flatMap.mp hk
    exact List.eq_of_mem_replicate hrep ▸ hrange m hm
  have hmap : ∀ {targets : List ℕ} {rpc : RpcName}, (∀ k ∈ targets, 1 ≤ k ∧ k ≤ n) →
      ∀ key ∈ targets.map (·, rpc), 1 ≤ key.1 ∧ key.1 ≤ n := by
    intro targets rpc htargets key hkey
    obtain ⟨k, hk, rfl⟩ := List.mem_map.mp hkey
    exact htargets k hk
  rw [benchProgram, issuesOf_append, issuesOf_stopProgram, List.mem_append] at h
  rcases h with h | h
  · rw [testProgram] at h
    split_ifs at h
    · exact hmap hrange key (issuesOf_syncCalls .ping _ _ _ ▸ h)
    · exact hmap hrange key (issuesOf_asyncCalls .ping _ _ _ ▸ h)
    · exact hmap hrepeated key (issuesOf_syncCalls .taskSubmit _ _ _ ▸ h)
    · exact hmap hrepeated key (issuesOf_asyncCalls .taskSubmit _ _ _ ▸ h)
    · exact hmap hrepeated key (issuesOf_syncCalls .ping _ _ _ ▸ h)
    · exact hmap hrepeated key (issuesOf_asyncCalls .ping _ _ _ ▸ h)
    · exact absurd h List.not_mem_nil
  · exact hmap hrange key h

/-- **A call that was issued in time is accepted when it arrives.** -/
theorem Smooth.arrival (h : Smooth (benchProgram test n reps) s past left)
    (hcourse : OnCourse test n reps s) (htime : InTime s) {i : ℕ} {call : RpcCall}
    (hcall : s.calls[i]? = some call) (hsent : call.handler = .sent) :
    s.arrival call = .running := by
  by_cases hrpc : call.rpc = .stopDaemon
  · exact hcourse.engines.arrival_stop hcourse.underway h.toProgress hcall hsent hrpc
  · have hmem : call ∈ s.calls := List.mem_of_getElem? hcall
    have hregistered : call.rpc ∈ (s.nodes call.target).registered :=
      htime.registered call.key (List.mem_map_of_mem hmem) hrpc
    have hlive : (s.nodes call.target).server = .live := by
      cases hserver : (s.nodes call.target).server with
      | absent =>
        have hkey : (s.calls.map RpcCall.key)[i]? = some call.key := by
          rw [List.getElem?_map, hcall, Option.map_some]
        obtain ⟨hk, hkn⟩ :=
          target_of_mem_issues (List.mem_of_getElem? (h.getElem?_issuesOf hkey))
        have hdone := serverInitDone_of_sleepOver
          (hcourse.engines.issuedAfter (List.ne_nil_of_mem hmem)) hk hkn
        have hboot : (s.nodes call.target).stage ≠ .boot := fun hstage => by
          simp [RpcCall.key, hstage, Stage.serverInitDone] at hdone
        exact absurd hserver ((hcourse.underway.equipped call.target).server hboot)
      | live => rfl
      | finalized =>
        have hstop := hcourse.underway.stopped call.target hserver
        have hpast := h.mem_waitsOf hstop hcall hrpc
        exact absurd hsent (h.answered_of_mem hcall hpast).1
    rw [System.arrival, if_pos ⟨hlive, hregistered⟩]

/-- A step of another party that takes no call back. -/
theorem Smooth.setCall (h : Smooth full s past left) {i : ℕ} {call : RpcCall}
    (hcall : s.calls[i]? = some call) (call' : RpcCall) (hkey : call'.key = call.key)
    (hreceived : call.received = true → call'.received = true)
    (hanswered : call'.received = true → System.Answered call')
    (haccepted : call'.handler ≠ .rejected) (hcalls : s'.calls = (s.setCall i call').calls)
    (hmain : s'.main = s.main) (hcollected : s'.collected = s.collected) :
    Smooth full s' past left where
  toProgress := h.toProgress.frame (by rw [hcalls, map_key_setCall hcall hkey]) hmain hcollected
  running := hmain.trans h.running
  all := hcollected.trans h.all
  arrived j hj := by
    obtain ⟨c, hc, hreceivedc⟩ := h.arrived j (hcollected ▸ hj)
    rw [hcalls]
    rcases eq_or_ne i j with rfl | hij
    · obtain rfl := Option.some.inj (hcall.symm.trans hc)
      exact ⟨call', System.getElem?_setCall hcall, hreceived hreceivedc⟩
    · exact ⟨c, (List.getElem?_set_ne hij).trans hc, hreceivedc⟩
  answered c hc := by
    rw [hcalls] at hc
    rcases List.mem_or_eq_of_mem_set hc with hc | rfl
    · exact h.answered c hc
    · exact hanswered
  accepted c hc := by
    rw [hcalls] at hc
    rcases List.mem_or_eq_of_mem_set hc with hc | rfl
    · exact h.accepted c hc
    · exact haccepted

/-- **A call node 1 issues is the next of its program.** -/
theorem Smooth.issue {target : ℕ} {rpc : RpcName} {rest : List Instr}
    (h : Smooth full s past (.issue target rpc :: rest)) :
    Smooth full { s with calls := s.calls ++ [{ target := target, rpc := rpc }], main := some rest }
      (past ++ [.issue target rpc]) rest where
  toProgress := by
    have hblock : Progress full s past ([.issue target rpc] ++ rest) := h.toProgress
    exact hblock.pass List.map_append (fun _ hj => hj) (fun _ hj => Or.inl hj)
      (fun j hj => absurd hj (by simp)) rfl
  running := rfl
  all := by
    rw [waitsOf_append]
    exact h.all.trans (List.append_nil _).symm
  arrived i hi := by
    obtain ⟨call, hcall, hreceived⟩ := h.arrived i hi
    exact ⟨call, (List.getElem?_append_left (List.getElem?_eq_some_iff.mp hcall).1).trans hcall,
      hreceived⟩
  answered call hcall := by
    rcases List.mem_append.mp hcall with hcall | hcall
    · exact h.answered call hcall
    · obtain rfl := List.mem_singleton.mp hcall
      exact fun hreceived => absurd hreceived Bool.false_ne_true
  accepted call hcall := by
    rcases List.mem_append.mp hcall with hcall | hcall
    · exact h.accepted call hcall
    · obtain rfl := List.mem_singleton.mp hcall
      simp

/-- **A response node 1 collects is the next of its program.** -/
theorem Smooth.collect {i : ℕ} {guard : Guard} {rest : List Instr} {call : RpcCall}
    (h : Smooth full s past (.wait i guard :: rest)) (hcall : s.calls[i]? = some call)
    (hreceived : call.received = true) :
    Smooth full { s with collected := s.collected ++ [i], main := some rest }
      (past ++ [.wait i guard]) rest where
  toProgress := by
    have hblock : Progress full s past ([.wait i guard] ++ rest) := h.toProgress
    refine hblock.pass (List.append_nil _).symm (fun _ hj => List.mem_append_left _ hj)
      (fun _ hj => List.mem_append.mp hj) (fun j hj => ?_) rfl
    obtain ⟨rfl, -⟩ := Instr.wait.inj (List.mem_singleton.mp hj)
    exact List.mem_append_right _ (List.mem_singleton.mpr rfl)
  running := rfl
  all := by
    rw [waitsOf_append]
    exact congrArg (· ++ [i]) h.all
  arrived j hj := by
    rcases List.mem_append.mp hj with hj | hj
    · exact h.arrived j hj
    · obtain rfl := List.mem_singleton.mp hj
      exact ⟨call, hcall, hreceived⟩
  answered := h.answered
  accepted := h.accepted

/-- **Node 1's program goes on**: its client engine is live, and the response it waits for was not a
rejection. -/
theorem Smooth.stepMain (h : Smooth (benchProgram test n reps) s past left) (hn : 1 ≤ n)
    (hcourse : OnCourse test n reps s) (hsafe : ShutdownSafe n s)
    (hstep : step n s .main = some s') :
    ∃ past' left', Smooth (benchProgram test n reps) s' past' left' := by
  obtain ⟨hstage, hs'⟩ := Option.ite_none_right_eq_some.mp hstep
  obtain _ | ⟨instr, rest⟩ := left
  · simp [h.running] at hs'
  · have hlive : (s.nodes 1).client = .live := by
      cases hclient : (s.nodes 1).client with
      | absent => exact absurd hclient (hcourse.engines.clientMade 1 (by rw [hstage]; rfl))
      | live => rfl
      | finalized =>
        have hdone := (allCollected_iff hn h.toProgress).mp (hsafe hclient)
        rw [h.running] at hdone
        exact absurd (Option.some.inj hdone) (List.cons_ne_nil _ _)
    simp only [h.running, if_pos hlive] at hs'
    cases instr with
    | issue target rpc =>
      obtain rfl := Option.some.inj hs'
      exact ⟨_, _, h.issue⟩
    | wait i guard =>
      rw [System.runInstr] at hs'
      split at hs'
      · rename_i call hcall
        obtain ⟨hreceived, hs'⟩ := Option.ite_none_right_eq_some.mp hs'
        rw [if_neg (h.accepted call (List.mem_of_getElem? hcall))] at hs'
        obtain rfl := Option.some.inj hs'
        exact ⟨_, _, h.collect hcall hreceived⟩
      · cases hs'

/-- **A step of a run in which everything is in time goes wrong nowhere.** -/
theorem Smooth.step {a : Action} (h : Smooth (benchProgram test n reps) s past left) (hn : 1 ≤ n)
    (hcourse : OnCourse test n reps s) (htime : InTime s) (hsafe : ShutdownSafe n s)
    (hstep : ChiNettest.step n s a = some s') :
    ∃ past' left', Smooth (benchProgram test n reps) s' past' left' := by
  cases a with
  | main => exact h.stepMain hn hcourse hsafe hstep
  | advance k =>
    cases moves_of_step hstep with
    | advance _ =>
      exact ⟨past, left, h.toProgress.frame rfl rfl rfl, h.running, h.all, h.arrived, h.answered,
        h.accepted⟩
  | exit =>
    cases moves_of_step hstep with
    | exit _ =>
      exact ⟨past, left, h.toProgress.frame rfl rfl rfl, h.running, h.all, h.arrived, h.answered,
        h.accepted⟩
  | deliver i =>
    cases moves_of_step hstep with
    | @deliver _ call hcall hsent =>
      have hunreceived : call.received = false := by
        by_contra hreceived
        exact (h.answered call (List.mem_of_getElem? hcall) (by simpa using hreceived)).1 hsent
      refine ⟨past, left, h.setCall hcall { call with handler := s.arrival call } rfl id
        (fun hreceived => ?_) ?_ rfl rfl rfl⟩
      · exact absurd (hunreceived.symm.trans hreceived) Bool.false_ne_true
      · simp [h.arrival hcourse htime hcall hsent]
  | handle i =>
    cases moves_of_step hstep with
    | @respond _ call hcall _ =>
      exact ⟨past, left, h.setCall hcall { call with handler := .responded } rfl id
        (fun _ => by simp [System.Answered]) (by simp) rfl rfl rfl⟩
    | @finalizeClient _ call hcall _ _ =>
      exact ⟨past, left, h.setCall hcall { call with handler := .clientFinalized } rfl id
        (fun _ => by simp [System.Answered]) (by simp) rfl rfl rfl⟩
    | @finalizeServer _ call hcall _ _ =>
      exact ⟨past, left, h.setCall hcall { call with handler := .serverFinalized } rfl id
        (fun _ => by simp [System.Answered]) (by simp) rfl rfl rfl⟩
  | receive i =>
    obtain ⟨call, hcall, hanswered, -, rfl⟩ := receive_spec hstep
    exact ⟨past, left, h.setCall hcall { call with received := true } rfl (fun _ => rfl)
      (fun _ => hanswered)
      (h.accepted call (List.mem_of_getElem? hcall)) rfl rfl rfl⟩

end Smooth

/-! ## Every run in time is finished where it ends -/

/-- **A step is in time**: node 1 issues its call in time, and node 1's handler of `RpcStopDaemon`
finalizes the client engine only after node 1's program is finished. -/
def InTimeStep (s : System) (a : Action) : Prop :=
  IssuesInTime s a ∧ (FinalizesCaller s a → s.main = some [])

instance (s : System) : DecidablePred (FinalizesCaller s)
  | .handle i => decidable_of_iff (∃ call ∈ s.calls[i]?, call.target = 1 ∧
      call.rpc = .stopDaemon ∧ call.handler = .responded) (by
        constructor
        · rintro ⟨call, hcall, htarget, hrpc, hhandler⟩
          exact ⟨i, call, rfl, hcall, htarget, hrpc, hhandler⟩
        · rintro ⟨j, call, hj, hcall, htarget, hrpc, hhandler⟩
          obtain rfl := Action.handle.inj hj
          exact ⟨call, hcall, htarget, hrpc, hhandler⟩)
  | .advance _ | .main | .deliver _ | .receive _ | .exit => isFalse fun ⟨_, _, ha, _⟩ => by cases ha

instance (s : System) (a : Action) : Decidable (InTimeStep s a) :=
  inferInstanceAs (Decidable (_ ∧ _))

/-- **The benchmark is finished**: every call of the program has been issued, accepted and answered,
every response has been collected, once and in the order of the calls, `main` of node 1 has
returned, and both engines of every other node are finalized. -/
structure Finished (test : String) (n reps : ℕ) (s : System) : Prop where
  main : s.main = some []
  exited : s.exited = true
  issued : s.calls.map RpcCall.key = issuesOf (benchProgram test n reps)
  accepted : ∀ call ∈ s.calls, call.handler ≠ .rejected ∧ System.Answered call
  collected : s.collected = List.range' 0 s.calls.length
  stopped : ∀ k, 1 < k → k ≤ n →
    (s.nodes k).client = .finalized ∧ (s.nodes k).server = .finalized

/-- What holds in every state of a run in time. -/
structure Timely (test : String) (n reps : ℕ) (s : System) : Prop where
  course : OnCourse test n reps s
  time : InTime s
  safe : ShutdownSafe n s
  smooth : ∃ past left, Smooth (benchProgram test n reps) s past left

section Timely

variable {test : String} {n reps : ℕ} {s s' : System}

theorem Timely.step {a : Action} (h : Timely test n reps s) (hn : 1 ≤ n) (ha : InTimeStep s a)
    (hstep : ChiNettest.step n s a = some s') : Timely test n reps s' := by
  obtain ⟨past, left, hsmooth⟩ := h.smooth
  exact ⟨h.course.step hstep, h.time.moves ha.1 (moves_of_step hstep),
    (shutdownSafe_step_iff hn hsmooth.toProgress h.safe hstep).mpr ha.2,
    hsmooth.step hn h.course h.time h.safe hstep⟩

theorem timely_initial (test : String) (n reps : ℕ) : Timely test n reps (initial test n reps) where
  course := onCourse_initial test n reps
  time := inTime_initial test n reps
  safe hclient := absurd hclient nofun
  smooth := ⟨[], benchProgram test n reps,
    { toProgress := progress_initial test n reps
      running := rfl
      all := rfl
      arrived := fun _ hi => absurd hi List.not_mem_nil
      answered := fun _ hcall => absurd hcall List.not_mem_nil
      accepted := fun _ hcall => absurd hcall List.not_mem_nil }⟩

/-- Where every constructor is finished, node 1 issues in time. -/
theorem OnCourse.issuesInTime (h : OnCourse test n reps s)
    (hconstructed : ∀ k, 1 ≤ k → k ≤ n → (s.nodes k).stage = .constructed) :
    IssuesInTime s .main := by
  obtain ⟨past, left, hprogress⟩ := h.progress
  rintro ⟨k, rpc⟩ hnext
  obtain ⟨-, rest, hmain⟩ := main_of_nextCall hnext
  obtain ⟨hk, hkn⟩ := target_of_mem_issues (List.mem_of_getElem? (hprogress.getElem?_next hmain))
  have hstage := hconstructed k hk hkn
  cases rpc with
  | stopDaemon => rwa [if_pos rfl]
  | ping =>
    rw [if_neg nofun]
    exact (h.registers k).ping (Or.inr hstage)
  | taskSubmit =>
    rw [if_neg nofun]
    exact (h.registers k).taskSubmit hstage

/-- In a run in time no constructor fails. -/
theorem Timely.stage_ne_aborted (h : Timely test n reps s) (k : ℕ) :
    (s.nodes k).stage ≠ .aborted := by
  intro haborted
  have hconstructed := h.time.finalized k (h.course.stopped_of_aborted haborted).1
  rw [haborted] at hconstructed
  cases hconstructed

/-- **Where nothing can be done in time, node 1 has returned from `main`** and every call to a
process that is there is answered. -/
theorem Timely.main_of_stuck (h : Timely test n reps s) (hn : 1 ≤ n)
    (hstuck : ∀ a, InTimeStep s a → ChiNettest.step n s a = none) :
    s.AllAnswered ∧ s.main = some [] ∧ s.exited = true := by
  obtain ⟨past, left, hsmooth⟩ := h.smooth
  have hother : ∀ {a : Action}, a ≠ .main → IssuesInTime s a := by
    intro a ha
    cases a with
    | main => exact absurd rfl ha
    | advance | deliver | handle | receive | exit => trivial
  have hfree : ∀ {a : Action}, (∀ i, a ≠ .handle i) → FinalizesCaller s a → s.main = some [] :=
    fun ha ⟨i, _, hi, _⟩ => absurd hi (ha i)
  have hconstructed : ∀ k, 1 ≤ k → k ≤ n → (s.nodes k).stage = .constructed := fun k hk hkn =>
    (constructed_of_stuck (fun j => hstuck (.advance j) ⟨hother (by simp), hfree (by simp)⟩) hk
      hkn).resolve_right (h.stage_ne_aborted k)
  have hanswered : s.AllAnswered := by
    intro call hcall hpresent _
    obtain ⟨i, hi⟩ := List.mem_iff_getElem?.mp hcall
    refine answered_of_stuck hi hpresent (hstuck _ ⟨hother (by simp), hfree (by simp)⟩)
      fun hrunning => hstuck _ ⟨hother (by simp), ?_⟩
    rintro ⟨j, call', hj, hcall', -, -, hresponded⟩
    obtain rfl := Action.handle.inj hj
    obtain rfl := Option.some.inj (hi.symm.trans hcall')
    exact absurd (hrunning.symm.trans hresponded) (by simp)
  refine ⟨hanswered, (ChiNettest.main_of_stuck h.course (hconstructed 1 le_rfl hn)
    (hstuck .main ⟨h.course.issuesInTime hconstructed, hfree (by simp)⟩)
    (hstuck .exit ⟨hother (by simp), hfree (by simp)⟩)
    (fun i => hstuck (.receive i) ⟨hother (by simp), hfree (by simp)⟩) hanswered).resolve_right ?_⟩
  rw [hsmooth.running]
  simp

/-- **What a run in time has done where it can go no further.** -/
theorem Timely.finished (h : Timely test n reps s) (hn : 1 ≤ n)
    (hstuck : ∀ a, InTimeStep s a → ChiNettest.step n s a = none) : Finished test n reps s := by
  obtain ⟨past, left, hsmooth⟩ := h.smooth
  obtain ⟨hanswered, hmain, hexited⟩ := h.main_of_stuck hn hstuck
  have hhandle : ∀ i, ChiNettest.step n s (.handle i) = none := fun i =>
    hstuck _ ⟨trivial, fun _ => hmain⟩
  obtain rfl := hsmooth.left_eq hmain
  have hpast : past = benchProgram test n reps := by rw [hsmooth.split, List.append_nil]
  have hissued : s.calls.map RpcCall.key = issuesOf (benchProgram test n reps) := by
    rw [hsmooth.issued, hpast]
  have hlength : s.calls.length = (issuesOf (testProgram test n reps)).length + n := by
    rw [← List.length_map (f := RpcCall.key), hissued, benchProgram, issuesOf_append,
      List.length_append, issuesOf_stopProgram, List.length_map, List.length_range']
  have hwaits : waitsOf past = List.range' 0 s.calls.length := by
    rw [hpast, waitsOf_benchProgram, hlength]
  refine ⟨hmain, hexited, hissued, fun call hcall => ⟨hsmooth.accepted call hcall, ?_⟩,
    hsmooth.all.trans hwaits, fun k hk hkn => ?_⟩
  · obtain ⟨i, hi⟩ := List.mem_iff_getElem?.mp hcall
    obtain ⟨hlt, -⟩ := List.getElem?_eq_some_iff.mp hi
    refine hsmooth.answered_of_mem hi ?_
    rw [hwaits]
    exact List.mem_range'_1.mpr ⟨Nat.zero_le i, by omega⟩
  · have hstop : (k, RpcName.stopDaemon) ∈ s.calls.map RpcCall.key := by
      rw [hissued]
      exact List.mem_of_getElem? (getElem?_issuesOf_benchProgram.mpr ⟨hk.le, hkn, rfl⟩)
    have hserver :=
      (stopped_of_stuck h.course (by omega) hanswered fun i _ => hhandle i).mpr hstop
    obtain ⟨call, hcall, hkey, hfinal⟩ := (h.course.engines.server k).mp hserver
    exact ⟨(h.course.engines.client k).mpr ⟨call, hcall, hkey, Or.inr hfinal⟩, hserver⟩

end Timely

/-- **Every run in time ends with the benchmark finished**: where no step can be taken in time,
every call of the program is issued, accepted and answered, every response collected, `main` of
node 1 has returned, and every other daemon is stopped. -/
theorem finished_of_inTime (test : String) (n reps : ℕ) (hn : 1 ≤ n) (run : List Action)
    (s : System) (h : exec (step n) (initial test n reps) run = some s)
    (htime : EveryStep (step n) InTimeStep (initial test n reps) run)
    (hstuck : ∀ a, InTimeStep s a → step n s a = none) : Finished test n reps s := by
  have hrun : EveryState (step n) (Timely test n reps) (initial test n reps) run :=
    everyState_of_everyStep (fun _ _ _ hs ha hstep => hs.step hn ha hstep)
      (timely_initial test n reps) htime
  exact (hrun.last h).finished hn hstuck

theorem finished_of_inTime_hurriedRun :
    ∃ s, exec (step 2) (initial "ping" 2 1) hurriedRun = some s ∧ Finished "ping" 2 1 s := by
  obtain ⟨s, hs, hstuck⟩ := exec_hurriedRun
  exact ⟨s, hs, finished_of_inTime "ping" 2 1 (by decide) hurriedRun s hs (by decide)
    fun a _ => hstuck a⟩

end ChiNettest
