import ChiNettest.Bench.Lifecycle

/-!
# Ping/Processes — the processes of `chi_net_ping` on one port

A run of `chi_net_ping` is one process on one host: what `main` of it calls is its test and its node
id (`mainCalls`).  What the processes share is the shared memory `nettest_<port>` of each host, and
the RPCs between them: `StopAllDaemons` of a client asks the servers of its hosts to stop, and each
of them handles that in a step of its own.

A call of `main` is one step, `step`.  It has an `Effect` on its process, on the shared memory of
its host and on the servers it stops; or it raises, or ends the process by `HELOG(kFatal)`, and then
the process exits with whatever it has left behind.

Of the operating system it is assumed that shared memory stays until `DestroySharedMemory`, that an
engine goes with its process and that one engine listens at the port of a host; of Thallium, that a
server answers what it has registered until its engine is finalized.
-/

namespace ChiNettest.Ping

/-! ## Processes -/

/-- A call of `main`. -/
inductive MainCall
  | destroySharedMemory
  /-- `CHI_THALLIUM->ServerInit` -/
  | thalliumServerInit
  /-- `runner.ServerInit`, which registers `RpcPing` -/
  | runnerServerInit
  | createNewSharedMemory
  | runDaemon
  | openSharedMemory
  | clientInit
  | pingAll
  | stopAllDaemons
  deriving DecidableEq, Repr

/-- **The calls of `main`**, for a test and a node id; `main` returns after the last. -/
def mainCalls (test : String) (nodeId : ℕ) : List MainCall :=
  (if test = "server" ∨ test = "touchserver" then
    [.destroySharedMemory, .thalliumServerInit, .runnerServerInit, .createNewSharedMemory]
  else []) ++
  (if test = "server" then [.runDaemon] else []) ++
  (if test = "client" ∧ nodeId = 1 then
    [.openSharedMemory, .clientInit, .pingAll, .stopAllDaemons, .destroySharedMemory]
  else [])

/-- `main` pings as the client of node 1 or not at all. -/
theorem mainCalls_cases (test : String) (nodeId : ℕ) :
    mainCalls test nodeId
      = [.openSharedMemory, .clientInit, .pingAll, .stopAllDaemons, .destroySharedMemory] ∨
    ∀ call ∈ mainCalls test nodeId, call ≠ .clientInit ∧ call ≠ .pingAll := by
  by_cases hclient : test = "client" ∧ nodeId = 1
  · obtain ⟨rfl, rfl⟩ := hclient
    exact Or.inl rfl
  · right
    intro call hcall
    rw [mainCalls, if_neg hclient, List.append_nil] at hcall
    rcases List.mem_append.mp hcall with hcall | hcall <;> split at hcall <;>
      (constructor <;> rintro rfl <;> simp at hcall)

/-- **`main` pings right after `ClientInit`, and calls that right after `OpenSharedMemory`.** -/
theorem mainCalls_before {test : String} {nodeId k : ℕ}
    (h : (mainCalls test nodeId)[k]? = some .clientInit ∨
      (mainCalls test nodeId)[k]? = some .pingAll) :
    ∃ j, k = j + 1 ∧ ((mainCalls test nodeId)[j]? = some .openSharedMemory ∨
      (mainCalls test nodeId)[j]? = some .clientInit) := by
  rcases mainCalls_cases test nodeId with hclient | hnone
  · rw [hclient] at h ⊢
    match k with
    | 0 => simp at h
    | 1 => exact ⟨0, rfl, Or.inl rfl⟩
    | 2 => exact ⟨1, rfl, Or.inr rfl⟩
    | 3 => simp at h
    | 4 => simp at h
    | k + 5 => simp at h
  · rcases h with h | h
    · exact absurd rfl (hnone _ (List.mem_of_getElem? h)).1
    · exact absurd rfl (hnone _ (List.mem_of_getElem? h)).2

/-- A process: its configuration, how many calls of `main` it has behind it, and its engines. -/
structure Process (Host : Type*) where
  host : Host
  /-- the hosts of its configuration, in node order -/
  hosts : List Host
  test : String
  nodeId : ℕ
  pc : ℕ := 0
  exited : Bool := false
  server : Engine := .absent
  client : Engine := .absent
  registered : List RpcName := []
  /-- an `RpcStopDaemon` has arrived -/
  stopping : Bool := false
  deriving DecidableEq, Repr

section Process

variable {Host : Type*}

namespace Process

variable {p : Process Host}

/-- The call `main` makes next: `none` at its end. -/
def next (p : Process Host) : Option MainCall := (mainCalls p.test p.nodeId)[p.pc]?

/-- The process after a call that returns. -/
def done (p : Process Host) : Process Host := { p with pc := p.pc + 1 }

/-- The process after its end, its engines gone. -/
def exit (p : Process Host) : Process Host :=
  { p with exited := true, server := .absent, client := .absent }

/-- `StopThisDaemon`: both engines are finalized. -/
def stopThisDaemon (p : Process Host) : Process Host :=
  { p with client := .finalized, server := .finalized, stopping := false }

/-- **A ready server**: `ThalliumRpc::ServerInit` is finished, `RpcPing` is registered and the
server engine has not been finalized. -/
def Ready (p : Process Host) : Prop := p.server = .live ∧ .ping ∈ p.registered

instance (p : Process Host) : Decidable p.Ready := inferInstanceAs (Decidable (_ ∧ _))

/-- A client past `OpenSharedMemory` that has not pinged yet. -/
def PastOpen (p : Process Host) : Prop :=
  p.exited = false ∧ (p.next = some .clientInit ∨ p.next = some .pingAll)

instance (p : Process Host) : Decidable p.PastOpen := inferInstanceAs (Decidable (_ ∧ _))

theorem not_ready_exit (p : Process Host) : ¬ p.exit.Ready := fun h => absurd h.1 nofun

theorem not_ready_stopThisDaemon (p : Process Host) : ¬ p.stopThisDaemon.Ready :=
  fun h => absurd h.1 nofun

/-- A process gets past `OpenSharedMemory` by that call alone. -/
theorem pastOpen_or_of_done (h : p.done.PastOpen) :
    p.PastOpen ∨ p.next = some .openSharedMemory := by
  obtain ⟨j, hj, hnext⟩ := mainCalls_before h.2
  obtain rfl : p.pc = j := Nat.succ.inj hj
  exact hnext.symm.imp_left fun hinit => ⟨h.1, Or.inl hinit⟩

/-- A process just started is not past `OpenSharedMemory`. -/
theorem pc_ne_zero_of_pastOpen (h : p.PastOpen) : p.pc ≠ 0 := by
  obtain ⟨j, hj, -⟩ := mainCalls_before h.2
  omega

end Process

/-! ## The port -/

/-- One port: the processes started so far, and whether a host has the shared memory. -/
structure Port (Host : Type*) where
  procs : List (Process Host)
  shm : Host → Bool

/-- What a step of a process does: to the process, to the shared memory of its host, and to the
servers of the hosts it asks to stop. -/
structure Effect (Host : Type*) where
  proc : Process Host
  shm : Bool
  stops : List Host := []

/-- A step on the port. -/
inductive Action (Host : Type*)
  /-- `chi_net_ping` is run -/
  | start (host : Host) (hosts : List Host) (test : String) (nodeId : ℕ)
  /-- the next call of `main` returns, or `main` does -/
  | call (proc : ℕ)
  /-- the next call of `main` does not return; `StopAllDaemons` has got to `sent` nodes -/
  | raise (proc : ℕ) (sent : ℕ)
  /-- `RpcStopDaemon` -/
  | handleStop (proc : ℕ)
  deriving DecidableEq, Repr

namespace Port

variable {s : Port Host} {i : ℕ} {p : Process Host} {host : Host}

/-- A server engine listens on a host. -/
def Listening (s : Port Host) (host : Host) : Prop :=
  ∃ p ∈ s.procs, p.host = host ∧ p.server = .live

/-- **A host has a ready server.** -/
def ReadyOn (s : Port Host) (host : Host) : Prop := ∃ p ∈ s.procs, p.host = host ∧ p.Ready

theorem readyOn_iff : s.ReadyOn host ↔
    ∃ (j : ℕ) (q : Process Host), s.procs[j]? = some q ∧ q.host = host ∧ q.Ready := by
  constructor
  · rintro ⟨q, hq, hready⟩
    obtain ⟨j, hj⟩ := List.mem_iff_getElem?.mp hq
    exact ⟨j, q, hj, hready⟩
  · rintro ⟨j, q, hj, hready⟩
    exact ⟨q, List.mem_of_getElem? hj, hready⟩

/-- Process number `i`, if it has not exited. -/
def running (s : Port Host) (i : ℕ) : Option (Process Host) :=
  s.procs[i]?.filter fun p => !p.exited

theorem getElem?_of_running (h : s.running i = some p) : s.procs[i]? = some p :=
  Option.eq_some_of_filter_eq_some h

end Port

end Process

/-! ## Steps -/

section Step

variable {Host : Type*} [DecidableEq Host]

/-- A server on one of `hosts` is asked to stop. -/
def Process.askToStop (hosts : List Host) (p : Process Host) : Process Host :=
  if p.server = .live ∧ p.host ∈ hosts then { p with stopping := true } else p

@[simp] theorem askToStop_host (hosts : List Host) (p : Process Host) :
    (p.askToStop hosts).host = p.host := by
  rw [Process.askToStop]
  split <;> rfl

@[simp] theorem askToStop_server (hosts : List Host) (p : Process Host) :
    (p.askToStop hosts).server = p.server := by
  rw [Process.askToStop]
  split <;> rfl

@[simp] theorem ready_askToStop (hosts : List Host) (p : Process Host) :
    (p.askToStop hosts).Ready ↔ p.Ready := by
  rw [Process.askToStop]
  split <;> rfl

@[simp] theorem pastOpen_askToStop (hosts : List Host) (p : Process Host) :
    (p.askToStop hosts).PastOpen ↔ p.PastOpen := by
  rw [Process.askToStop]
  split <;> rfl

instance (s : Port Host) (host : Host) : Decidable (s.Listening host) :=
  inferInstanceAs (Decidable (∃ p ∈ s.procs, _))

instance (s : Port Host) (host : Host) : Decidable (s.ReadyOn host) :=
  inferInstanceAs (Decidable (∃ p ∈ s.procs, _))

/-- The port after a step of process number `i`. -/
def Port.after (s : Port Host) (i : ℕ) (e : Effect Host) : Port Host where
  procs := (s.procs.map (Process.askToStop e.stops)).set i e.proc
  shm := Function.update s.shm e.proc.host e.shm

theorem Port.procs_after_self {s : Port Host} {i : ℕ} {p : Process Host} {e : Effect Host}
    (hp : s.procs[i]? = some p) : (s.after i e).procs[i]? = some e.proc := by
  rw [after, List.getElem?_set_self']
  simp [hp]

theorem Port.procs_after_of_ne {s : Port Host} {i j : ℕ} {e : Effect Host} (h : j ≠ i) :
    (s.after i e).procs[j]? = s.procs[j]?.map (Process.askToStop e.stops) := by
  rw [after, List.getElem?_set_ne h.symm, List.getElem?_map]

/-- **What a call of process `p` does when it returns**: `none` if it cannot. -/
def MainCall.returns (s : Port Host) (p : Process Host) : MainCall → Option (Effect Host)
  | destroySharedMemory => some { proc := p.done, shm := false }
  | thalliumServerInit =>
    if s.Listening p.host then none
    else some {
      proc := { p.done with server := .live, client := .live, registered := [.stopDaemon] }
      shm := s.shm p.host }
  | runnerServerInit =>
    if p.server = .live then
      some { proc := { p.done with registered := .ping :: p.registered }, shm := s.shm p.host }
    else none
  | createNewSharedMemory => some { proc := p.done, shm := true }
  | runDaemon =>
    if p.server = .finalized then some { proc := p.done, shm := s.shm p.host } else none
  | openSharedMemory =>
    if s.shm p.host then some { proc := p.done, shm := s.shm p.host } else none
  | clientInit => some { proc := { p.done with client := .live }, shm := s.shm p.host }
  | pingAll =>
    if ∀ host ∈ p.hosts, s.ReadyOn host then some { proc := p.done, shm := s.shm p.host } else none
  | stopAllDaemons =>
    if ∀ host ∈ p.hosts, s.Listening host then
      some { proc := p.done, shm := s.shm p.host, stops := p.hosts }
    else none

/-- **What a call of process `p` does when it raises, or ends the process by `HELOG(kFatal)`**:
`none` if it never does. -/
def MainCall.raises (s : Port Host) (p : Process Host) (sent : ℕ) :
    MainCall → Option (Effect Host)
  | destroySharedMemory | createNewSharedMemory | runDaemon => none
  | thalliumServerInit | runnerServerInit | clientInit | pingAll =>
    some { proc := p.exit, shm := s.shm p.host }
  | openSharedMemory =>
    if s.shm p.host then none else some { proc := p.exit, shm := s.shm p.host }
  | stopAllDaemons => some { proc := p.exit, shm := s.shm p.host, stops := p.hosts.take sent }

/-- **One step on the port**: `none` where it cannot be taken. -/
def step (s : Port Host) : Action Host → Option (Port Host)
  | .start host hosts test nodeId =>
    some { s with
      procs := s.procs ++ [{ host := host, hosts := hosts, test := test, nodeId := nodeId }] }
  | .call i => (s.running i).bind fun p =>
    match p.next with
    | some call => (call.returns s p).map (s.after i)
    | none => some (s.after i { proc := p.exit, shm := s.shm p.host })
  | .raise i sent => (s.running i).bind fun p =>
    p.next.bind fun call => (call.raises s p sent).map (s.after i)
  | .handleStop i => s.procs[i]?.bind fun p =>
    if p.stopping ∧ p.server = .live then
      some (s.after i { proc := p.stopThisDaemon, shm := s.shm p.host })
    else none

/-- A port nobody has used. -/
def initial : Port Host where
  procs := []
  shm _ := false

/-! ## What a step can do -/

/-- **The steps on the port**, each with what lets it be taken. -/
inductive Moves (s : Port Host) : Action Host → Port Host → Prop
  | start (host : Host) (hosts : List Host) (test : String) (nodeId : ℕ) :
      Moves s (.start host hosts test nodeId) { s with
        procs := s.procs ++ [{ host := host, hosts := hosts, test := test, nodeId := nodeId }] }
  | call {i : ℕ} {p : Process Host} {call : MainCall} {e : Effect Host} :
      s.running i = some p → p.next = some call → call.returns s p = some e →
      Moves s (.call i) (s.after i e)
  | exit {i : ℕ} {p : Process Host} :
      s.running i = some p → p.next = none →
      Moves s (.call i) (s.after i { proc := p.exit, shm := s.shm p.host })
  | raise {i sent : ℕ} {p : Process Host} {stops : List Host} :
      s.running i = some p →
      Moves s (.raise i sent) (s.after i { proc := p.exit, shm := s.shm p.host, stops := stops })
  | handleStop {i : ℕ} {p : Process Host} :
      s.procs[i]? = some p →
      Moves s (.handleStop i) (s.after i { proc := p.stopThisDaemon, shm := s.shm p.host })

omit [DecidableEq Host] in
/-- A call that does not return leaves its process exited and the shared memory as it is. -/
theorem raises_spec {s : Port Host} {p : Process Host} {sent : ℕ} {call : MainCall}
    {e : Effect Host} (h : call.raises s p sent = some e) :
    e.proc = p.exit ∧ e.shm = s.shm p.host := by
  cases call <;> simp only [MainCall.raises, Option.ite_none_left_eq_some, reduceCtorEq,
    Option.some.injEq] at h
  case openSharedMemory =>
    obtain ⟨-, rfl⟩ := h
    exact ⟨rfl, rfl⟩
  all_goals
    obtain rfl := h
    exact ⟨rfl, rfl⟩

/-- **What a step can do.** -/
theorem moves_of_step {s s' : Port Host} {a : Action Host} (h : step s a = some s') :
    Moves s a s' := by
  cases a with
  | start host hosts test nodeId =>
    obtain rfl := Option.some.inj h
    exact .start host hosts test nodeId
  | call i =>
    obtain ⟨p, hp, h⟩ := Option.bind_eq_some_iff.mp h
    split at h
    · rename_i call hnext
      obtain ⟨e, he, rfl⟩ := Option.map_eq_some_iff.mp h
      exact .call hp hnext he
    · rename_i hnext
      obtain rfl := Option.some.inj h
      exact .exit hp hnext
  | raise i sent =>
    obtain ⟨p, hp, h⟩ := Option.bind_eq_some_iff.mp h
    obtain ⟨call, -, h⟩ := Option.bind_eq_some_iff.mp h
    obtain ⟨⟨proc, shm, stops⟩, he, rfl⟩ := Option.map_eq_some_iff.mp h
    obtain ⟨rfl, rfl⟩ := raises_spec he
    exact .raise hp
  | handleStop i =>
    obtain ⟨p, hp, h⟩ := Option.bind_eq_some_iff.mp h
    split at h
    · obtain rfl := Option.some.inj h
      exact .handleStop hp
    · exact absurd h nofun

end Step

end ChiNettest.Ping
