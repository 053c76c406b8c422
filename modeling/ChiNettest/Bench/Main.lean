import ChiNettest.Bench.Calls
import ChiNettest.Bench.Lifecycle
import ChiNettest.Bench.PingAll
import ChiNettest.Thallium.StopAllDaemons

/-!
# Bench/Main — `main` of node 1, and the program the system has it run

`benchMain` is what `main` of the benchmark calls once `TestRunner` is constructed: loops over the
nodes, `try` blocks, exceptions.  The system of `Bench/Lifecycle` has node 1 run a list of
instructions instead, `benchProgram`.

`runProgram` says what such a list comes to, and `Agrees` that a computation comes to the same.
Each of the loops agrees with its part of the program, so `main` does with the whole
(`benchMain_agrees`): it issues the calls of the program, in order, and ends as the program does.
-/

namespace ChiNettest

open Prog

/-! ## What a program comes to -/

/-- The name an RPC is registered under. -/
def RpcName.funcName : RpcName → String
  | stopDaemon => "RpcStopDaemon"
  | ping => "RpcPing"
  | taskSubmit => "RpcTaskSubmit"

/-- **How a program ends**: the calls it has issued, and whether it has run to its end. -/
structure ProgramEnd where
  issued : List (ℕ × RpcName)
  returned : Bool
  deriving DecidableEq, Repr

/-- What is left behind a raise is shorter than what was there. -/
theorem length_afterRaise_le {guard : Guard} {rest rest' : List Instr}
    (h : guard.afterRaise rest = some rest') : rest'.length ≤ rest.length := by
  cases guard with
  | unguarded => cases h
  | perCall => exact Option.some.inj h ▸ le_rfl
  | wholeLoop => exact Option.some.inj h ▸ (List.dropWhile_sublist _).length_le

/-- **What a program comes to** from the calls `issued` on, `raises` telling of a call, by its
number and what it was issued as, whether the wait for its response raises. -/
def runProgram (raises : ℕ → ℕ × RpcName → Bool) :
    List Instr → List (ℕ × RpcName) → ProgramEnd
  | [], issued => ⟨issued, true⟩
  | .issue target rpc :: rest, issued => runProgram raises rest (issued ++ [(target, rpc)])
  | .wait i guard :: rest, issued =>
    if (issued[i]?).any (raises i) then
      match h : guard.afterRaise rest with
      | none => ⟨issued, false⟩
      | some rest' =>
        have := length_afterRaise_le h
        runProgram raises rest' issued
    else runProgram raises rest issued
termination_by prog => prog.length

section RunProgram

variable {raises : ℕ → ℕ × RpcName → Bool} {i : ℕ} {guard : Guard} {rest : List Instr}
  {issued : List (ℕ × RpcName)} {call : ℕ × RpcName}

@[simp] theorem runProgram_nil : runProgram raises [] issued = ⟨issued, true⟩ := by
  rw [runProgram]

theorem runProgram_issue {target : ℕ} {rpc : RpcName} :
    runProgram raises (.issue target rpc :: rest) issued
      = runProgram raises rest (issued ++ [(target, rpc)]) := by
  rw [runProgram]

/-- A response that does not raise. -/
theorem runProgram_wait_ok (hcall : issued[i]? = some call) (h : raises i call = false) :
    runProgram raises (.wait i guard :: rest) issued = runProgram raises rest issued := by
  rw [runProgram, hcall, Option.any_some, if_neg (by simp [h])]

/-- A response that raises, the exception leaving `main`. -/
theorem runProgram_wait_raise (hcall : issued[i]? = some call) (h : raises i call = true) :
    runProgram raises (.wait i .unguarded :: rest) issued = ⟨issued, false⟩ := by
  rw [runProgram, hcall, Option.any_some, if_pos h]
  rfl

/-- A response that raises, the exception being caught. -/
theorem runProgram_wait_caught {rest' : List Instr} (hcall : issued[i]? = some call)
    (h : raises i call = true) (hguard : guard.afterRaise rest = some rest') :
    runProgram raises (.wait i guard :: rest) issued = runProgram raises rest' issued := by
  rw [runProgram, hcall, Option.any_some, if_pos h]
  split
  · rename_i hnone
    exact absurd (hguard.symm.trans hnone) (by simp)
  · rename_i hsome
    rw [Option.some.inj (hguard.symm.trans hsome)]

theorem runProgram_issues (rpc : RpcName) : ∀ (targets : List ℕ) (issued : List (ℕ × RpcName)),
    runProgram raises (targets.map (Instr.issue · rpc) ++ rest) issued
      = runProgram raises rest (issued ++ targets.map (·, rpc))
  | [], issued => by rw [List.map_nil, List.map_nil, List.nil_append, List.append_nil]
  | target :: targets, issued => by
      rw [List.map_cons, List.cons_append, runProgram_issue, runProgram_issues rpc targets,
        List.map_cons, List.append_assoc]
      rfl

end RunProgram

/-! ## `main` -/

section Main

variable (lib : HshmAny) (net : ℕ → NodeId → CallOutcome) (ctx : RpcContext) (heap : Heap)
  (config : ServerConfig)

/-- The test main selects. -/
def runTest (fuel : ℕ) : CallerProg Unit :=
  if config.test = "ping" then do
    let _count ← pingAll false net ctx fuel
  else if config.test = "ping_async" then do
    let _count ← pingAll true net ctx fuel
  else if config.test = "io" then do
    let _ops ← ioCalls lib false net ctx heap config.mdSize config.ioSize config.rep fuel
  else if config.test = "io_async" then do
    let _ops ← ioCalls lib true net ctx heap config.mdSize config.ioSize config.rep fuel
  else if config.test = "metadata" then do
    let _ops ← metadataCalls false net ctx heap config.mdSize (intOfSize config.rep) fuel
  else if config.test = "metadata_async" then do
    let _ops ← metadataCalls true net ctx heap config.mdSize (intOfSize config.rep) fuel
  -- `HELOG(kError, "Unknown test: {}", info.test_)` only logs
  else pure ()

/-- **`main` of the benchmark behind the constructor of `TestRunner`**: the test and
`StopAllDaemons` on node 1, `RunDaemon`, which calls nobody, on the others. -/
def benchMain (fuel : ℕ) : CallerProg Unit :=
  if ctx.nodeId = 1 then do
    runTest lib net ctx heap config fuel
    stopAllDaemons net ctx 1 fuel
  else pure ()

end Main

/-- The program of a node: that of the system on node 1, none on the others. -/
def programOf (ctx : RpcContext) (config : ServerConfig) : List Instr :=
  if ctx.nodeId = 1 then benchProgram config.test ctx.numHosts config.rep.toNat else []

/-! ## Agreement -/

/-- A caller has issued these calls, in this order. -/
def Issued (s : Caller) (issued : List (ℕ × RpcName)) : Prop :=
  s.issued.map (fun call => (call.nodeId.toNat, call.funcName))
    = issued.map fun call => (call.1, call.2.funcName)

/-- The calls whose response raises. -/
def raisesOf (net : ℕ → NodeId → CallOutcome) (i : ℕ) (call : ℕ × RpcName) : Bool :=
  net i (UInt32.ofNat call.1) = .waitRaises

/-- **A computation does what a part of a program does**, `rest` being what the program goes on
with: it has issued the calls of the part when it returns, and when an exception leaves it, that
leaves the program. -/
inductive Agrees (net : ℕ → NodeId → CallOutcome) {α : Type} (prog rest : List Instr)
    (issued : List (ℕ × RpcName)) : Option (Except Exn α × Caller) → Prop
  | returns {a : α} {t : Caller} : Issued t (issued ++ issuesOf prog) →
      runProgram (raisesOf net) (prog ++ rest) issued
        = runProgram (raisesOf net) rest (issued ++ issuesOf prog) →
      Agrees net prog rest issued (some (.ok a, t))
  | raises {t : Caller} {issued' : List (ℕ × RpcName)} : Issued t issued' →
      runProgram (raisesOf net) (prog ++ rest) issued = ⟨issued', false⟩ →
      Agrees net prog rest issued (some (.error .margo, t))

section Agreement

variable {net : ℕ → NodeId → CallOutcome} {ctx : RpcContext} {α β : Type} {s : Caller}
  {prog prog' rest : List Instr} {issued : List (ℕ × RpcName)}

/-- Nothing is done, and nothing was to be done. -/
theorem Agrees.pure (a : α) (h : Issued s issued) :
    Agrees net [] rest issued ((Pure.pure a : CallerProg α).run s) :=
  .returns (by rwa [issuesOf, List.filterMap_nil, List.append_nil])
    (by rw [issuesOf, List.filterMap_nil, List.append_nil, List.nil_append])

/-- **One after the other.** -/
theorem Agrees.bind {p : CallerProg α} {f : α → CallerProg β}
    (hp : Agrees net prog (prog' ++ rest) issued (p.run s))
    (hf : ∀ a t, p.run s = some (.ok a, t) → Issued t (issued ++ issuesOf prog) →
      Agrees net prog' rest (issued ++ issuesOf prog) ((f a).run t)) :
    Agrees net (prog ++ prog') rest issued ((p >>= f).run s) := by
  generalize hres : p.run s = res at hp
  cases hp with
  | @returns a t hissued hprog =>
    have hrest := hf a t hres hissued
    rw [run_bind_ok hres]
    generalize (f a).run t = res' at hrest
    cases hrest with
    | returns hissued' hprog' =>
      refine .returns ?_ ?_
      · rwa [issuesOf_append, ← List.append_assoc]
      · rw [List.append_assoc, hprog, hprog', issuesOf_append, ← List.append_assoc]
    | raises hissued' hprog' =>
      exact .raises hissued' (by rw [List.append_assoc, hprog, hprog'])
  | @raises t issued' hissued hprog =>
    rw [run_bind_error hres]
    exact .raises hissued (by rw [List.append_assoc, hprog])

/-- A call issued is issued in the program. -/
theorem Issued.issue (h : Issued s issued) (nodeId : NodeId) (rpc : RpcName) (payload : ℕ) :
    Issued (s.issue ⟨nodeId, rpc.funcName, payload⟩) (issued ++ [(nodeId.toNat, rpc)]) := by
  rw [Issued, Caller.issue, List.map_append, List.map_append, h]
  rfl

theorem Issued.length_eq (h : Issued s issued) : s.issued.length = issued.length := by
  simpa using congrArg List.length h

theorem Issued.congr {t : Caller} (h : Issued s issued) (hissued : t.issued = s.issued) :
    Issued t issued := by
  rwa [Issued, hissued]

theorem raisesOf_eq (net : ℕ → NodeId → CallOutcome) (i : ℕ) (nodeId : NodeId)
    (rpc : RpcName) :
    raisesOf net i (nodeId.toNat, rpc) = decide (net i nodeId = .waitRaises) := by
  rw [raisesOf, UInt32.ofNat_toNat]

/-! ### Synchronous calls -/

/-- **A synchronous call to a node**: it leaves, and if its response raises, the exception does so
only where no `try` stands around the call. -/
structure CallsOnce (net : ℕ → NodeId → CallOutcome) (rpc : RpcName) (payload : ℕ) (guard : Guard)
    (nodeId : NodeId) (one : CallerProg Unit) : Prop where
  guarded : guard = .perCall ∨ guard = .unguarded
  passes : ∀ s : Caller, net s.issued.length nodeId ≠ .waitRaises ∨ guard = .perCall →
    ∃ t, one.run s = some (.ok (), t) ∧
      t.issued = (s.issue ⟨nodeId, rpc.funcName, payload⟩).issued
  raises : ∀ s : Caller, net s.issued.length nodeId = .waitRaises → guard = .unguarded →
    ∃ t, one.run s = some (.error .margo, t) ∧
      t.issued = (s.issue ⟨nodeId, rpc.funcName, payload⟩).issued

theorem CallsOnce.agrees {rpc : RpcName} {payload : ℕ} {guard : Guard} {nodeId : NodeId}
    {one : CallerProg Unit} (h : CallsOnce net rpc payload guard nodeId one)
    (hissued : Issued s issued) :
    Agrees net [.issue nodeId.toNat rpc, .wait issued.length guard] rest issued (one.run s) := by
  have hcall : (issued ++ [(nodeId.toNat, rpc)])[issued.length]? = some (nodeId.toNat, rpc) :=
    List.getElem?_concat_length
  have hleft := hissued.issue nodeId rpc payload
  by_cases hnet : net s.issued.length nodeId = .waitRaises
  · have hraise : raisesOf net issued.length (nodeId.toNat, rpc) = true := by
      rw [raisesOf_eq, ← hissued.length_eq, decide_eq_true hnet]
    rcases h.guarded with rfl | rfl
    · obtain ⟨t, hrun, ht⟩ := h.passes s (.inr rfl)
      rw [hrun]
      exact .returns (hleft.congr ht)
        (runProgram_issue.trans (runProgram_wait_caught hcall hraise rfl))
    · obtain ⟨t, hrun, ht⟩ := h.raises s hnet rfl
      rw [hrun]
      exact .raises (hleft.congr ht) (runProgram_issue.trans (runProgram_wait_raise hcall hraise))
  · have hraise : raisesOf net issued.length (nodeId.toNat, rpc) = false := by
      rw [raisesOf_eq, ← hissued.length_eq, decide_eq_false hnet]
    obtain ⟨t, hrun, ht⟩ := h.passes s (.inl hnet)
    rw [hrun]
    exact .returns (hleft.congr ht) (runProgram_issue.trans (runProgram_wait_ok hcall hraise))

/-- **A loop of synchronous calls** does what the program of its targets does. -/
theorem agrees_syncCalls {rpc : RpcName} {payload : ℕ} {guard : Guard}
    {one : NodeId → CallerProg Unit} :
    ∀ {ids : List NodeId} {s : Caller} {issued : List (ℕ × RpcName)},
      (∀ nodeId ∈ ids, CallsOnce net rpc payload guard nodeId (one nodeId)) →
        Issued s issued →
          Agrees net (syncCalls rpc guard (ids.map UInt32.toNat) issued.length) rest issued
            ((forEach ids one).run s)
  | [], s, issued, _, hissued => .pure () hissued
  | nodeId :: ids, s, issued, h, hissued => by
      have hhead : Agrees net [.issue nodeId.toNat rpc, .wait issued.length guard]
          (syncCalls rpc guard (ids.map UInt32.toNat) (issued.length + 1) ++ rest) issued
          ((one nodeId).run s) := (h nodeId List.mem_cons_self).agrees hissued
      refine hhead.bind fun _ t _ ht => ?_
      have htail := agrees_syncCalls (fun m hm => h m (List.mem_cons_of_mem nodeId hm)) ht
      have hlength : (issued ++
          issuesOf [.issue nodeId.toNat rpc, .wait issued.length guard]).length
          = issued.length + 1 := List.length_append
      rwa [hlength] at htail

/-! ### Asynchronous calls -/

/-- **A wait for a response** raises if the response does, and issues nothing. -/
structure WaitsOnce (net : ℕ → NodeId → CallOutcome) (one : AsyncResponse → CallerProg Unit) :
    Prop where
  passes : ∀ (resp : AsyncResponse) (s : Caller), net resp.id resp.nodeId ≠ .waitRaises →
    ∃ t, (one resp).run s = some (.ok (), t) ∧ t.issued = s.issued
  raises : ∀ (resp : AsyncResponse) (s : Caller), net resp.id resp.nodeId = .waitRaises →
    ∃ t, (one resp).run s = some (.error .margo, t) ∧ t.issued = s.issued

theorem waitsOnce_wait {net : ℕ → NodeId → CallOutcome} : WaitsOnce net (wait net) where
  passes resp s hnet := ⟨s.await resp.id, run_wait_ok hnet, rfl⟩
  raises resp s hnet := ⟨s.await resp.id, run_wait_margo hnet, rfl⟩

theorem waitsOnce_waitCount {net : ℕ → NodeId → CallOutcome} : WaitsOnce net (waitCount net) where
  passes resp s hnet := ⟨(s.await resp.id).bump, run_bind_ok (run_wait_ok hnet), rfl⟩
  raises resp s hnet := ⟨s.await resp.id, run_bind_error (run_wait_margo hnet), rfl⟩

/-- A wait that passes is passed in the program. -/
theorem Agrees.wait_ok {i : ℕ} {guard : Guard} {call : ℕ × RpcName}
    (hcall : issued[i]? = some call) (h : raisesOf net i call = false)
    {res : Option (Except Exn α × Caller)} (hagrees : Agrees net prog rest issued res) :
    Agrees net (.wait i guard :: prog) rest issued res := by
  have hpass : runProgram (raisesOf net) (.wait i guard :: (prog ++ rest)) issued
      = runProgram (raisesOf net) (prog ++ rest) issued := runProgram_wait_ok hcall h
  cases hagrees with
  | returns hissued hprog => exact .returns hissued (hpass.trans hprog)
  | raises hissued hprog => exact .raises hissued (hpass.trans hprog)

/-- The calls to `ids` are in `issued`, from number `k` on. -/
def IssuedFrom (rpc : RpcName) (issued : List (ℕ × RpcName)) (ids : List NodeId) (k : ℕ) : Prop :=
  ∀ (j : ℕ) (nodeId : NodeId), ids[j]? = some nodeId → issued[k + j]? = some (nodeId.toNat, rpc)

theorem IssuedFrom.tail {rpc : RpcName} {nodeId : NodeId} {ids : List NodeId} {k : ℕ}
    (h : IssuedFrom rpc issued (nodeId :: ids) k) : IssuedFrom rpc issued ids (k + 1) := by
  intro j m hm
  have hnext := h (j + 1) m hm
  rwa [← Nat.add_assoc, Nat.add_right_comm] at hnext

/-- The waits of a loop behind calls to `ids`. -/
def waitsFrom (guard : Guard) (ids : List NodeId) (k : ℕ) : List Instr :=
  (List.range' k ids.length).map (Instr.wait · guard)

/-- The responses of calls to `ids`. -/
def responsesFrom (rpc : RpcName) (payload : ℕ) (ids : List NodeId) (k : ℕ) :
    List AsyncResponse :=
  responsesOf k (ids.map fun nodeId => ⟨nodeId, rpc.funcName, payload⟩)

section Waits

variable {rpc : RpcName} {payload : ℕ} {one : AsyncResponse → CallerProg Unit}

/-- **A loop of waits nothing catches.** -/
theorem agrees_waits (hone : WaitsOnce net one) :
    ∀ {ids : List NodeId} {k : ℕ} {s : Caller}, IssuedFrom rpc issued ids k → Issued s issued →
      Agrees net (waitsFrom .unguarded ids k) rest issued
        ((forEach (responsesFrom rpc payload ids k) one).run s)
  | [], k, s, _, hs => .pure () hs
  | nodeId :: ids, k, s, hfrom, hs => by
      have hcall : issued[k]? = some (nodeId.toNat, rpc) := hfrom 0 nodeId rfl
      by_cases hnet : net k nodeId = .waitRaises
      · have hraise : raisesOf net k (nodeId.toNat, rpc) = true := by
          rw [raisesOf_eq, decide_eq_true hnet]
        obtain ⟨t, hrun, ht⟩ := hone.raises ⟨k, nodeId⟩ s hnet
        have hloop : (forEach (responsesFrom rpc payload (nodeId :: ids) k) one).run s
            = some (.error .margo, t) := run_bind_error hrun
        rw [hloop]
        exact .raises (hs.congr ht) (runProgram_wait_raise hcall hraise)
      · have hraise : raisesOf net k (nodeId.toNat, rpc) = false := by
          rw [raisesOf_eq, decide_eq_false hnet]
        obtain ⟨t, hrun, ht⟩ := hone.passes ⟨k, nodeId⟩ s hnet
        have hloop : (forEach (responsesFrom rpc payload (nodeId :: ids) k) one).run s
            = (forEach (responsesFrom rpc payload ids (k + 1)) one).run t := run_bind_ok hrun
        rw [hloop]
        exact (agrees_waits hone hfrom.tail (hs.congr ht)).wait_ok hcall hraise

/-- **A loop of waits caught as a whole**: the first that raises ends it. -/
theorem agrees_waits_caught (hone : WaitsOnce net one)
    (hrest : rest.dropWhile Instr.inLoop = rest) :
    ∀ {ids : List NodeId} {k : ℕ} {s : Caller}, IssuedFrom rpc issued ids k → Issued s issued →
      Agrees net (waitsFrom .wholeLoop ids k) rest issued
        ((catchMargo (forEach (responsesFrom rpc payload ids k) one)).run s)
  | [], k, s, _, hs => .pure () hs
  | nodeId :: ids, k, s, hfrom, hs => by
      have hcall : issued[k]? = some (nodeId.toNat, rpc) := hfrom 0 nodeId rfl
      by_cases hnet : net k nodeId = .waitRaises
      · have hraise : raisesOf net k (nodeId.toNat, rpc) = true := by
          rw [raisesOf_eq, decide_eq_true hnet]
        obtain ⟨t, hrun, ht⟩ := hone.raises ⟨k, nodeId⟩ s hnet
        have hloop : (catchMargo (forEach (responsesFrom rpc payload (nodeId :: ids) k) one)).run s
            = some (.ok (), t) := run_catchMargo_margo (run_bind_error hrun)
        have hdrop : (waitsFrom .wholeLoop ids (k + 1) ++ rest).dropWhile Instr.inLoop = rest := by
          rw [List.dropWhile_append_of_pos, hrest]
          intro instr hinstr
          obtain ⟨i, -, rfl⟩ := List.mem_map.mp hinstr
          rfl
        have hskip : runProgram (raisesOf net)
            (.wait k .wholeLoop :: (waitsFrom .wholeLoop ids (k + 1) ++ rest)) issued
            = runProgram (raisesOf net) rest issued :=
          runProgram_wait_caught hcall hraise (congrArg some hdrop)
        have hnone : issuesOf (waitsFrom .wholeLoop (nodeId :: ids) k) = [] :=
          List.filterMap_eq_nil_iff.mpr fun instr hinstr => by
            obtain ⟨i, -, rfl⟩ := List.mem_map.mp hinstr
            rfl
        rw [hloop]
        refine .returns ?_ ?_
        · rw [hnone, List.append_nil]
          exact hs.congr ht
        · rw [hnone, List.append_nil]
          exact hskip
      · have hraise : raisesOf net k (nodeId.toNat, rpc) = false := by
          rw [raisesOf_eq, decide_eq_false hnet]
        obtain ⟨t, hrun, ht⟩ := hone.passes ⟨k, nodeId⟩ s hnet
        have hloop : (catchMargo (forEach (responsesFrom rpc payload (nodeId :: ids) k) one)).run s
            = (catchMargo (forEach (responsesFrom rpc payload ids (k + 1)) one)).run t :=
          run_catchMargo_congr (run_bind_ok hrun)
        rw [hloop]
        exact (agrees_waits_caught hone hrest hfrom.tail (hs.congr ht)).wait_ok hcall hraise

/-- The calls of a loop over `ids`. -/
def callsTo (rpc : RpcName) (payload : ℕ) (ids : List NodeId) : List IssuedCall :=
  ids.map fun nodeId => ⟨nodeId, rpc.funcName, payload⟩

theorem Issued.append (h : Issued s issued) (ids : List NodeId) (resps : List AsyncResponse) :
    Issued { s with issued := s.issued ++ callsTo rpc payload ids, responses := resps }
      (issued ++ ids.map fun nodeId => (nodeId.toNat, rpc)) := by
  rw [Issued, List.map_append, List.map_append, h, callsTo, List.map_map, List.map_map]
  rfl

/-- **A loop that posts calls, then waits for their responses.** -/
theorem agrees_asyncCalls {post : NodeId → CallerProg Unit} {guard : Guard} {ids : List NodeId}
    (waits : List AsyncResponse → CallerProg Unit) (hresponses : s.responses = [])
    (hissued : Issued s issued)
    (hpost : ∀ nodeId ∈ ids, ∀ t : Caller,
      (post nodeId).run t = some (.ok (), t.post ⟨nodeId, rpc.funcName, payload⟩))
    (hwaits : ∀ t : Caller, IssuedFrom rpc (issued ++ ids.map fun m => (m.toNat, rpc)) ids
        issued.length → Issued t (issued ++ ids.map fun m => (m.toNat, rpc)) →
      Agrees net (waitsFrom guard ids issued.length) rest
        (issued ++ ids.map fun m => (m.toNat, rpc))
        ((waits (responsesFrom rpc payload ids issued.length)).run t)) :
    Agrees net (asyncCalls rpc guard (ids.map UInt32.toNat) issued.length) rest issued
      ((forEach ids post >>= fun _ => get >>= fun t => waits t.responses).run s) := by
  have hposts : (forEach ids post).run s = some (.ok (), { s with
      issued := s.issued ++ callsTo rpc payload ids
      responses := responsesFrom rpc payload ids issued.length }) := by
    rw [run_forEach_ok ids s hpost, ← List.foldl_map (g := Caller.post), foldl_post, hresponses,
      hissued.length_eq]
    rfl
  have hsplit : asyncCalls rpc guard (ids.map UInt32.toNat) issued.length
      = (ids.map UInt32.toNat).map (Instr.issue · rpc) ++ waitsFrom guard ids issued.length := by
    rw [asyncCalls, List.length_map]
    rfl
  have hissues : issuesOf ((ids.map UInt32.toNat).map (Instr.issue · rpc))
      = ids.map fun m => (m.toNat, rpc) := by
    rw [issuesOf, List.filterMap_map, List.filterMap_map]
    exact congrFun (List.filterMap_eq_map (f := fun m : NodeId => (m.toNat, rpc))) ids
  have hfrom : IssuedFrom rpc (issued ++ ids.map fun m => (m.toNat, rpc)) ids issued.length := by
    intro j m hm
    rw [List.getElem?_append_right (Nat.le_add_right _ _), Nat.add_sub_cancel_left,
      List.getElem?_map, hm]
    rfl
  rw [hsplit]
  refine Agrees.bind ?_ fun _ t ht hissued' => ?_
  · rw [hposts]
    refine .returns (hissues ▸ hissued.append ids _) ?_
    rw [runProgram_issues, hissues, List.map_map]
    rfl
  · obtain rfl := (Prod.mk.inj (Option.some.inj (hposts.symm.trans ht))).2
    rw [hissues] at hissued' ⊢
    exact hwaits _ hfrom hissued'

end Waits

/-- Only the return value is changed. -/
theorem Agrees.bind_pure {p : CallerProg α} {f : α → CallerProg β}
    (hp : Agrees net prog rest issued (p.run s))
    (hf : ∀ a t, ∃ b, (f a).run t = some (.ok b, t)) :
    Agrees net prog rest issued ((p >>= f).run s) := by
  have hbind : Agrees net (prog ++ []) rest issued ((p >>= f).run s) := by
    refine Agrees.bind hp fun a t _ ht => ?_
    obtain ⟨b, hb⟩ := hf a t
    rw [hb]
    exact .pure b ht
  rwa [List.append_nil] at hbind

end Agreement

/-! ## The loops of `main` -/

/-- The nodes a test with `reps` repetitions calls. -/
def repeatedIds (n reps : ℕ) : List NodeId := (nodeIds n).flatMap (List.replicate reps)

theorem mem_nodeIds_of_mem_repeatedIds {n reps : ℕ} {nodeId : NodeId}
    (h : nodeId ∈ repeatedIds n reps) : nodeId ∈ nodeIds n := by
  obtain ⟨m, hm, hrep⟩ := List.mem_flatMap.mp h
  exact List.eq_of_mem_replicate hrep ▸ hm

theorem map_toNat_nodeIds {n : ℕ} (hn : n < 2 ^ 32) :
    (nodeIds n).map UInt32.toNat = List.range' 1 n := by
  rw [nodeIds, List.map_map]
  conv_rhs => rw [← List.map_id (List.range' 1 n)]
  refine List.map_congr_left fun k hk => ?_
  obtain ⟨-, hlt⟩ := List.mem_range'_1.mp hk
  exact UInt32.toNat_ofNat_of_lt' (show k < 2 ^ 32 by omega)

theorem map_toNat_repeatedIds {n : ℕ} (hn : n < 2 ^ 32) (reps : ℕ) :
    (repeatedIds n reps).map UInt32.toNat = repeatedTargets n reps := by
  rw [repeatedIds, List.map_flatMap, repeatedTargets, ← map_toNat_nodeIds hn, List.flatMap_map]
  refine List.flatMap_congr fun m _ => ?_
  rw [List.map_replicate]

/-- **The nodes and the repetitions are one loop**, where the `int` of the repetitions counts to
`c`. -/
theorem forNodes_forReps {n c fuel : ℕ} {test : ℤ → Bool} {one : NodeId → CallerProg Unit}
    (hn : n < 2 ^ 32 - 1) (hc : c < 2 ^ 31) (hfuel : max n c < fuel)
    (htest : ∀ i : ℕ, i ≤ c → test i = decide (i < c)) :
    forNodes n (fun nodeId => forReps test (one nodeId) fuel) fuel
      = forEach (repeatedIds n c) one := by
  have hreps : ∀ nodeId, forReps test (one nodeId) fuel
      = forEach (List.replicate c nodeId) one := by
    intro nodeId
    have hcount : forReps test (one nodeId) fuel
        = forEach ((List.range' 0 c).map Int.ofNat) fun _ => one nodeId :=
      forLoop_eq_forEach (counts_reps hc htest (Nat.zero_add c)) (by simp; omega)
    have hconst : ((List.range' 0 c).map Int.ofNat).map (fun _ => nodeId)
        = List.replicate c nodeId := by
      rw [List.map_const', List.length_map, List.length_range']
    rw [hcount, ← hconst, forEach_map fun _ => nodeId]
  rw [forNodes_eq_forEach hn (by omega), repeatedIds, forEach_flatMap]
  exact congrArg (forEach (nodeIds n)) (funext hreps)

/-! ### One call of each test -/

section Calls

variable {net : ℕ → NodeId → CallOutcome} {ctx : RpcContext} {nodeId : NodeId}

/-- The calls of `PingAll<false>`. -/
theorem callsOnce_pingNode (hgood : ¬ BadNode ctx.hosts nodeId)
    (hnet : ∀ i, net i nodeId ≠ .issueRaises) :
    CallsOnce net .ping 0 .perCall nodeId (pingNode false net ctx nodeId) where
  guarded := .inl rfl
  passes s _ := by
    refine ⟨pinged net s nodeId, run_pingNode_sync hgood s, ?_⟩
    rw [pinged]
    cases hcall : net s.issued.length nodeId with
    | issueRaises => exact absurd hcall (hnet _)
    | waitRaises => rfl
    | answers => rfl
  raises _ _ hguard := by cases hguard

/-- A synchronous call without a `try`. -/
theorem callsOnce_syncCall (hgood : ¬ BadNode ctx.hosts nodeId)
    (hnet : ∀ i, net i nodeId ≠ .issueRaises) (rpc : RpcName) (payload : ℕ) :
    CallsOnce net rpc payload .unguarded nodeId
      (syncCall net ctx nodeId rpc.funcName payload) where
  guarded := .inr rfl
  passes s h := by
    refine ⟨_, run_syncCall_ok hgood ?_ _ _, rfl⟩
    cases hcall : net s.issued.length nodeId with
    | issueRaises => exact absurd hcall (hnet _)
    | waitRaises => exact absurd hcall (h.resolve_right (by simp))
    | answers => rfl
  raises s hraise _ := ⟨_, run_syncCall_margo hgood hraise _ _, rfl⟩

end Calls

/-! ### The tests -/

section Tests

variable {net : ℕ → NodeId → CallOutcome} {ctx : RpcContext} {heap : Heap} {s : Caller}
  {issued : List (ℕ × RpcName)} {rest : List Instr} {fuel : ℕ}

/-- **`PingAll<false>`.** -/
theorem agrees_pingAll_sync (hn : ctx.numHosts < 2 ^ 32 - 1) (hfuel : ctx.numHosts < fuel)
    (hnet : ∀ i, ∀ nodeId ∈ nodeIds ctx.numHosts, net i nodeId ≠ .issueRaises)
    (hissued : Issued s issued) :
    Agrees net (syncCalls .ping .perCall (List.range' 1 ctx.numHosts) issued.length) rest issued
      ((pingAll false net ctx fuel).run s) := by
  have hloop : Agrees net (syncCalls .ping .perCall (List.range' 1 ctx.numHosts) issued.length)
      rest issued ((forNodes ctx.numHosts (pingNode false net ctx) fuel).run s.enter) := by
    rw [forNodes_eq_forEach hn hfuel, ← map_toNat_nodeIds (by omega)]
    exact agrees_syncCalls (fun m hm => callsOnce_pingNode
      (not_badNode_of_mem_nodeIds (by omega) hm) fun i => hnet i m hm) (hissued.congr rfl)
  exact hloop.bind_pure fun _ t => ⟨t.count, rfl⟩

/-- **`PingAll<true>`.** -/
theorem agrees_pingAll_async (hn : ctx.numHosts < 2 ^ 32 - 1) (hfuel : ctx.numHosts < fuel)
    (hnet : ∀ i, ∀ nodeId ∈ nodeIds ctx.numHosts, net i nodeId ≠ .issueRaises)
    (hrest : rest.dropWhile Instr.inLoop = rest) (hissued : Issued s issued) :
    Agrees net (asyncCalls .ping .wholeLoop (List.range' 1 ctx.numHosts) issued.length) rest issued
      ((pingAll true net ctx fuel).run s) := by
  have henter : Issued s.enter issued := hissued.congr rfl
  have hpost : ∀ m ∈ nodeIds ctx.numHosts, ∀ t : Caller,
      (pingNode true net ctx m).run t
        = some (.ok (), t.post ⟨m, RpcName.ping.funcName, 0⟩) := by
    intro m hm t
    rw [run_pingNode_async (not_badNode_of_mem_nodeIds (by omega) hm) t, if_pos (hnet _ m hm)]
    rfl
  have hloop : Agrees net (asyncCalls .ping .wholeLoop ((nodeIds ctx.numHosts).map UInt32.toNat)
      issued.length) rest issued
      ((forEach (nodeIds ctx.numHosts) (pingNode true net ctx) >>= fun _ =>
        get >>= fun t => catchMargo (forEach t.responses (waitCount net))).run
          s.enter) :=
    agrees_asyncCalls (fun resps => catchMargo (forEach resps (waitCount net))) rfl henter
      hpost
      fun t hfrom ht => agrees_waits_caught waitsOnce_waitCount hrest hfrom ht
  rw [map_toNat_nodeIds (by omega), ← forNodes_eq_forEach hn hfuel] at hloop
  have hcount := hloop.bind_pure (f := fun _ => do let t ← get; return t.count) fun _ t =>
    ⟨t.count, rfl⟩
  rwa [bind_bind] at hcount

/-- **`StopAllDaemons`.** -/
theorem agrees_stopAllDaemons (hn : ctx.numHosts < 2 ^ 32 - 1) (hfuel : ctx.numHosts < fuel)
    (hnet : ∀ i, ∀ nodeId ∈ nodeIds ctx.numHosts, net i nodeId ≠ .issueRaises)
    (hissued : Issued s issued) :
    Agrees net (stopProgram ctx.numHosts issued.length) rest issued
      ((stopAllDaemons net ctx 1 fuel).run s) := by
  have henter : Issued s.enter issued := hissued.congr rfl
  have hpost : ∀ m ∈ nodeIds ctx.numHosts, ∀ t : Caller,
      (postCall net ctx "RpcStopDaemon" 0 m).run t
        = some (.ok (), t.post ⟨m, RpcName.stopDaemon.funcName, 0⟩) := fun m hm t =>
    run_postCall_ok (not_badNode_of_mem_nodeIds (by omega) hm) (hnet _ m hm) _ _
  have hloop : Agrees net (asyncCalls .stopDaemon .unguarded
      ((nodeIds ctx.numHosts).map UInt32.toNat) issued.length) rest issued
      ((forEach (nodeIds ctx.numHosts) (postCall net ctx "RpcStopDaemon" 0) >>=
        fun _ => get >>= fun t => forEach t.responses (wait net)).run s.enter) :=
    agrees_asyncCalls (fun resps => forEach resps (wait net)) rfl henter hpost
      fun t hfrom ht => agrees_waits waitsOnce_wait hfrom ht
  rwa [map_toNat_nodeIds (by omega), ← forNodes_eq_forEach hn hfuel] at hloop

section CallLoop

variable {c : ℕ} {size : UInt64} {test : ℤ → Bool} {one : NodeId → CallerProg Unit}
  {rpc : RpcName} {payload : ℕ}

/-- The loop of a synchronous test. -/
theorem agrees_callLoop_sync (hn : ctx.numHosts < 2 ^ 32 - 1) (hc : c < 2 ^ 31)
    (hfuel : max ctx.numHosts c < fuel) (hroom : size.toNat ≤ heap.vectorMax)
    (htest : ∀ i : ℕ, i ≤ c → test i = decide (i < c))
    (hone : ∀ nodeId ∈ nodeIds ctx.numHosts,
      CallsOnce net rpc payload .unguarded nodeId (one nodeId)) (hissued : Issued s issued) :
    Agrees net (syncCalls rpc .unguarded (repeatedTargets ctx.numHosts c) issued.length) rest issued
      ((callLoop false net heap ctx.numHosts size test one fuel).run s) := by
  have hreserve : (heap.reserve size).run s = some (.ok (), s) := by
    rw [Heap.reserve, if_pos hroom, run_pure]
  have hloop : Agrees net (syncCalls rpc .unguarded (repeatedTargets ctx.numHosts c) issued.length)
      rest issued ((forEach (repeatedIds ctx.numHosts c) one).run s) := by
    rw [← map_toNat_repeatedIds (by omega)]
    exact agrees_syncCalls (fun m hm => hone m (mem_nodeIds_of_mem_repeatedIds hm)) hissued
  rw [callLoop, run_bind_ok hreserve, forNodes_forReps hn hc hfuel htest]
  exact hloop.bind_pure fun _ t => ⟨(), rfl⟩

/-- The loop of an asynchronous test. -/
theorem agrees_callLoop_async (hn : ctx.numHosts < 2 ^ 32 - 1) (hc : c < 2 ^ 31)
    (hfuel : max ctx.numHosts c < fuel) (hroom : size.toNat ≤ heap.vectorMax)
    (htest : ∀ i : ℕ, i ≤ c → test i = decide (i < c))
    (hone : ∀ nodeId ∈ nodeIds ctx.numHosts, ∀ t : Caller,
      (one nodeId).run t = some (.ok (), t.post ⟨nodeId, rpc.funcName, payload⟩))
    (hresponses : s.responses = []) (hissued : Issued s issued) :
    Agrees net (asyncCalls rpc .unguarded (repeatedTargets ctx.numHosts c) issued.length) rest
      issued ((callLoop true net heap ctx.numHosts size test one fuel).run s) := by
  have hreserve : (heap.reserve size).run s = some (.ok (), s) := by
    rw [Heap.reserve, if_pos hroom, run_pure]
  rw [callLoop, run_bind_ok hreserve, forNodes_forReps hn hc hfuel htest,
    ← map_toNat_repeatedIds (by omega)]
  exact agrees_asyncCalls (fun resps => forEach resps (wait net)) hresponses hissued
    (fun m hm => hone m (mem_nodeIds_of_mem_repeatedIds hm)) fun t hfrom ht =>
      agrees_waits waitsOnce_wait hfrom ht

end CallLoop

end Tests

/-! ## The whole of `main` -/

/-- **The run fits**: its counters hold the numbers they count to, its memory has room for what it
keeps, and no call raises when it is issued. -/
structure BenchFits (net : ℕ → NodeId → CallOutcome) (ctx : RpcContext) (heap : Heap)
    (config : ServerConfig) : Prop where
  hosts : ctx.numHosts < 2 ^ 31
  reps : config.rep.toNat < 2 ^ 31
  string : config.mdSize.toNat ≤ heap.stringMax
  responses : ctx.numHosts * config.rep.toNat ≤ heap.vectorMax
  callable : ∀ i, ∀ nodeId ∈ nodeIds ctx.numHosts, net i nodeId ≠ .issueRaises

section Whole

variable {lib : HshmAny} {net : ℕ → NodeId → CallOutcome} {ctx : RpcContext} {heap : Heap}
  {config : ServerConfig} {s : Caller} {issued : List (ℕ × RpcName)} {rest : List Instr} {fuel : ℕ}

/-- The responses of a test fit, counted as a `size_t`. -/
theorem BenchFits.room (h : BenchFits net ctx heap config) :
    (UInt64.ofNat ctx.numHosts * config.rep).toNat ≤ heap.vectorMax := by
  have hops : ctx.numHosts * config.rep.toNat < 2 ^ 64 :=
    lt_of_lt_of_le (Nat.mul_lt_mul'' h.hosts h.reps) (by norm_num)
  rw [toNat_numHosts_mul h.hosts hops]
  exact h.responses

theorem BenchFits.room_int (h : BenchFits net ctx heap config) :
    (UInt64.ofNat ctx.numHosts * UInt64.ofInt (intOfSize config.rep)).toNat ≤ heap.vectorMax := by
  have hops : ctx.numHosts * config.rep.toNat < 2 ^ 64 :=
    lt_of_lt_of_le (Nat.mul_lt_mul'' h.hosts h.reps) (by norm_num)
  rw [toNat_numHosts_mul_int h.hosts hops (.inr h.reps)]
  exact h.responses

/-- The test of the repetitions of `IoCalls`. -/
theorem BenchFits.test_io (h : BenchFits net ctx heap config) (i : ℕ) (hi : i ≤ config.rep.toNat) :
    decide (UInt64.ofInt (i : ℤ) < config.rep) = decide (i < config.rep.toNat) := by
  have hreps := h.reps
  exact decide_eq_decide.mpr (by rw [UInt64.lt_iff_toNat_lt, toNat_sizeOfInt (by omega)])

/-- The test of the repetitions of `MetadataCalls`. -/
theorem BenchFits.test_metadata (h : BenchFits net ctx heap config) (i : ℕ) :
    decide ((i : ℤ) < intOfSize config.rep) = decide (i < config.rep.toNat) := by
  exact decide_eq_decide.mpr (by rw [intOfSize_eq h.reps, Nat.cast_lt])

theorem BenchFits.good (h : BenchFits net ctx heap config) {nodeId : NodeId}
    (hmem : nodeId ∈ nodeIds ctx.numHosts) : ¬ BadNode ctx.hosts nodeId :=
  not_badNode_of_mem_nodeIds (lt_trans h.hosts (by norm_num)) hmem

/-- **`IoCalls<false>`.** -/
theorem agrees_ioCalls_sync (h : BenchFits net ctx heap config)
    (hfuel : max ctx.numHosts config.rep.toNat < fuel) (hissued : Issued s issued) :
    Agrees net (syncCalls .taskSubmit .unguarded (repeatedTargets ctx.numHosts config.rep.toNat)
      issued.length) rest issued
      ((ioCalls lib false net ctx heap config.mdSize config.ioSize config.rep fuel).run
        s) := by
  have hhosts := h.hosts
  have henter : Issued s.enter issued := hissued.congr rfl
  obtain ⟨md, -, hmd⟩ := run_string h.string s.enter
  rw [ioCalls, run_bind_ok (run_modify _ _), run_bind_ok hmd]
  have hone : ∀ m ∈ nodeIds ctx.numHosts, CallsOnce net .taskSubmit
      (ioPayload lib (ioTransfer lib heap md config.ioSize) (dtWrite lib)) .unguarded m
      (ioOnce lib false net ctx (ioTransfer lib heap md config.ioSize) m) := by
    intro m hm
    rw [ioOnce, syncIoCall_eq]
    exact callsOnce_syncCall (h.good hm) (fun i => h.callable i m hm) .taskSubmit _
  exact (agrees_callLoop_sync (by omega) h.reps hfuel h.room h.test_io hone henter).bind_pure
    fun _ t => ⟨_, rfl⟩

/-- **`IoCalls<true>`.** -/
theorem agrees_ioCalls_async (h : BenchFits net ctx heap config)
    (hfuel : max ctx.numHosts config.rep.toNat < fuel) (hissued : Issued s issued) :
    Agrees net (asyncCalls .taskSubmit .unguarded (repeatedTargets ctx.numHosts config.rep.toNat)
      issued.length) rest issued
      ((ioCalls lib true net ctx heap config.mdSize config.ioSize config.rep fuel).run
        s) := by
  have hhosts := h.hosts
  have henter : Issued s.enter issued := hissued.congr rfl
  obtain ⟨md, -, hmd⟩ := run_string h.string s.enter
  rw [ioCalls, run_bind_ok (run_modify _ _), run_bind_ok hmd]
  have hone : ∀ m ∈ nodeIds ctx.numHosts, ∀ t : Caller,
      (ioOnce lib true net ctx (ioTransfer lib heap md config.ioSize) m).run t
        = some (.ok (), t.post ⟨m, RpcName.taskSubmit.funcName,
          ioPayload lib (ioTransfer lib heap md config.ioSize) (dtWrite lib)⟩) := by
    intro m hm t
    rw [ioOnce, asyncIoCall_eq]
    exact run_postCall_ok (h.good hm) (h.callable _ m hm) _ _
  exact (agrees_callLoop_async (by omega) h.reps hfuel h.room h.test_io hone rfl henter).bind_pure
    fun _ t => ⟨_, rfl⟩

/-- **`MetadataCalls<false>`.** -/
theorem agrees_metadataCalls_sync (h : BenchFits net ctx heap config)
    (hfuel : max ctx.numHosts config.rep.toNat < fuel) (hissued : Issued s issued) :
    Agrees net (syncCalls .ping .unguarded (repeatedTargets ctx.numHosts config.rep.toNat)
      issued.length) rest issued
      ((metadataCalls false net ctx heap config.mdSize (intOfSize config.rep) fuel).run
        s) := by
  have hhosts := h.hosts
  have henter : Issued s.enter issued := hissued.congr rfl
  obtain ⟨md, -, hmd⟩ := run_string h.string s.enter
  rw [metadataCalls, run_bind_ok (run_modify _ _), run_bind_ok hmd]
  exact (agrees_callLoop_sync (by omega) h.reps hfuel h.room_int (fun i _ => h.test_metadata i)
    (fun m hm => callsOnce_syncCall (h.good hm) (fun i => h.callable i m hm) .ping _)
    henter).bind_pure fun _ t => ⟨_, rfl⟩

/-- **`MetadataCalls<true>`.** -/
theorem agrees_metadataCalls_async (h : BenchFits net ctx heap config)
    (hfuel : max ctx.numHosts config.rep.toNat < fuel) (hissued : Issued s issued) :
    Agrees net (asyncCalls .ping .unguarded (repeatedTargets ctx.numHosts config.rep.toNat)
      issued.length) rest issued
      ((metadataCalls true net ctx heap config.mdSize (intOfSize config.rep) fuel).run
        s) := by
  have hhosts := h.hosts
  have henter : Issued s.enter issued := hissued.congr rfl
  obtain ⟨md, -, hmd⟩ := run_string h.string s.enter
  rw [metadataCalls, run_bind_ok (run_modify _ _), run_bind_ok hmd]
  exact (agrees_callLoop_async (by omega) h.reps hfuel h.room_int (fun i _ => h.test_metadata i)
    (fun m hm t => run_postCall_ok (h.good hm) (h.callable _ m hm) _ _) rfl
    henter).bind_pure fun _ t => ⟨_, rfl⟩

/-- **The test main selects does what its program does.** -/
theorem agrees_runTest (h : BenchFits net ctx heap config)
    (hfuel : max ctx.numHosts config.rep.toNat < fuel)
    (hrest : rest.dropWhile Instr.inLoop = rest) :
    Agrees net (testProgram config.test ctx.numHosts config.rep.toNat) rest []
      ((runTest lib net ctx heap config fuel).run {}) := by
  have hhosts := h.hosts
  have hnone : Issued {} [] := rfl
  rw [runTest, testProgram]
  split_ifs
  · exact (agrees_pingAll_sync (by omega) (by omega) h.callable hnone).bind_pure
      fun _ _ => ⟨(), rfl⟩
  · exact (agrees_pingAll_async (by omega) (by omega) h.callable hrest hnone).bind_pure
      fun _ _ => ⟨(), rfl⟩
  · exact (agrees_ioCalls_sync h hfuel hnone).bind_pure fun _ _ => ⟨(), rfl⟩
  · exact (agrees_ioCalls_async h hfuel hnone).bind_pure fun _ _ => ⟨(), rfl⟩
  · exact (agrees_metadataCalls_sync h hfuel hnone).bind_pure fun _ _ => ⟨(), rfl⟩
  · exact (agrees_metadataCalls_async h hfuel hnone).bind_pure fun _ _ => ⟨(), rfl⟩
  · exact .pure () hnone

/-- `StopAllDaemons` does not start with a wait. -/
theorem dropWhile_stopProgram (n k : ℕ) :
    (stopProgram n k).dropWhile Instr.inLoop = stopProgram n k := by
  cases n <;> rfl

/-- **`main` does what its program does.** -/
theorem agrees_benchMain (h : BenchFits net ctx heap config)
    (hfuel : max ctx.numHosts config.rep.toNat < fuel) :
    Agrees net (programOf ctx config) [] [] ((benchMain lib net ctx heap config fuel).run {}) := by
  have hhosts := h.hosts
  rw [programOf, benchMain]
  split_ifs
  · refine (agrees_runTest h hfuel ?_).bind fun _ t _ ht => ?_
    · rw [List.append_nil, dropWhile_stopProgram]
    · exact agrees_stopAllDaemons (by omega) (by omega) h.callable ht
  · exact .pure () rfl

/-- What a computation that does what a whole program does comes to. -/
theorem Agrees.atEnd {prog : List Instr} {res : Option (Except Exn Unit × Caller)}
    (h : Agrees net prog [] [] res) :
    ∃ r s, res = some (r, s) ∧ Issued s (runProgram (raisesOf net) prog []).issued ∧
      r = if (runProgram (raisesOf net) prog []).returned then .ok () else .error .margo := by
  cases h with
  | @returns a t hissued hprog =>
    rw [List.append_nil, runProgram_nil] at hprog
    exact ⟨.ok a, t, rfl, by rwa [hprog], by rw [hprog]; rfl⟩
  | @raises t issued hissued hprog =>
    rw [List.append_nil] at hprog
    exact ⟨.error .margo, t, rfl, by rwa [hprog], by rw [hprog]; rfl⟩

end Whole

/-- **`main` of node 1 does what the program of the system does**, where the run fits and whichever
responses raise: it issues the calls of the program, in order, and an exception leaves it exactly
where one leaves the program.  `main` of another node issues none. -/
theorem benchMain_agrees (lib : HshmAny) {net : ℕ → NodeId → CallOutcome} {ctx : RpcContext}
    {heap : Heap} {config : ServerConfig} (h : BenchFits net ctx heap config) {fuel : ℕ}
    (hfuel : max ctx.numHosts config.rep.toNat < fuel) :
    ∃ r s, (benchMain lib net ctx heap config fuel).run {} = some (r, s) ∧
      Issued s (runProgram (raisesOf net) (programOf ctx config) []).issued ∧
      r = if (runProgram (raisesOf net) (programOf ctx config) []).returned then .ok ()
        else .error .margo :=
  (agrees_benchMain h hfuel).atEnd

/-- The response to the second call is lost, whoever it goes to. -/
def secondCallLost (call : ℕ) (_ : NodeId) : CallOutcome :=
  if call = 1 then .waitRaises else .answers

/-- Three asynchronous transfers to each of two nodes, the second of which to the first node is
lost. -/
theorem benchMain_agrees_secondCallLost :
    ∃ r s, (benchMain wordFlags secondCallLost twoHosts roomyHeap
        { repeating 3 with test := "io_async" } 4).run {} = some (r, s) ∧
      Issued s (runProgram (raisesOf secondCallLost)
        (programOf twoHosts { repeating 3 with test := "io_async" }) []).issued ∧
      r = if (runProgram (raisesOf secondCallLost)
        (programOf twoHosts { repeating 3 with test := "io_async" }) []).returned then .ok ()
        else .error .margo :=
  benchMain_agrees wordFlags ⟨by decide, by decide, by decide, by decide, fun i nodeId _ => by
    rw [secondCallLost]
    split <;> simp⟩ (by decide)

end ChiNettest
