import ChiNettest.Machinery.Runs
import ChiNettest.Ping.Processes

/-!
# Ping/Marker — what the shared memory `nettest_<port>` says about a host

A client takes the shared memory of its host to mean that a server there answers `RpcPing`.  A
server makes it once it does, but nothing unmakes it when the server goes: `touchserver` falls out
of `main`, a server is stopped by a client of another host, a client whose `StopAllDaemons` throws
leaves without destroying it.

A step keeps the meaning of the shared memory exactly if it takes down no ready server of a host
that has it and makes it on no host without a ready server (`markerMeansReady_iff`).  No client
pings in vain as long as, besides, no ready server goes while a client of its host is past
`OpenSharedMemory` and has not pinged.
-/

namespace ChiNettest.Ping

section Marker

variable {Host : Type*}

/-- **The shared memory means a ready server**, on every host. -/
def MarkerMeansReady (s : Port Host) : Prop := ∀ host, s.shm host → s.ReadyOn host

/-- Every client past `OpenSharedMemory` has a ready server on its host until it has pinged. -/
def OpenedOnReady (s : Port Host) : Prop := ∀ p ∈ s.procs, p.PastOpen → s.ReadyOn p.host

/-- The process that pings in a step, whether `PingAll` returns or not. -/
def Port.pinging (s : Port Host) : Action Host → Option (Process Host)
  | .call i | .raise i _ => (s.running i).filter fun p => p.next = some .pingAll
  | .start .. | .handleStop _ => none

/-- The process whose engines a step takes down: it exits, or handles `RpcStopDaemon`. -/
def Port.takenDown (s : Port Host) : Action Host → Option (Process Host)
  | .call i => (s.running i).filter fun p => p.next = none
  | .raise i _ => s.running i
  | .handleStop i => s.procs[i]?
  | .start .. => none

/-- The process that makes the shared memory of its host in a step. -/
def Port.creating (s : Port Host) : Action Host → Option (Process Host)
  | .call i => (s.running i).filter fun p => p.next = some .createNewSharedMemory
  | .start .. | .raise .. | .handleStop _ => none

/-- **A client that pings has a ready server on its host.** -/
def PingsReady (s : Port Host) (a : Action Host) : Prop :=
  ∀ p ∈ s.pinging a, s.ReadyOn p.host

/-- **A step keeps the hosts with shared memory served**: it takes down no ready server of one, and
adds none without a ready server. -/
def KeepsMarked (s : Port Host) (a : Action Host) : Prop :=
  (∀ p ∈ s.takenDown a, p.Ready → s.shm p.host = false) ∧
    ∀ p ∈ s.creating a, s.ReadyOn p.host

/-- **A step keeps clients past `OpenSharedMemory` served**: it takes down no ready server of the
host of one that has not pinged. -/
def KeepsOpened (s : Port Host) (a : Action Host) : Prop :=
  ∀ p ∈ s.takenDown a, p.Ready → ∀ q ∈ s.procs, q.PastOpen → q.host ≠ p.host

section Conditions

variable {s : Port Host} {p : Process Host} {a : Action Host}

theorem keepsMarked_iff_of_takenDown (htaken : s.takenDown a = some p)
    (hcreating : s.creating a = none) : KeepsMarked s a ↔ (p.Ready → s.shm p.host = false) := by
  rw [KeepsMarked, htaken, hcreating]
  exact ⟨fun hkeeps => hkeeps.1 p rfl, fun hdown => ⟨fun q hq => Option.some.inj hq ▸ hdown, nofun⟩⟩

theorem keepsMarked_iff_of_creating (htaken : s.takenDown a = none)
    (hcreating : s.creating a = some p) : KeepsMarked s a ↔ s.ReadyOn p.host := by
  rw [KeepsMarked, htaken, hcreating]
  exact ⟨fun hkeeps => hkeeps.2 p rfl,
    fun hready => ⟨nofun, fun q hq => Option.some.inj hq ▸ hready⟩⟩

theorem keepsMarked_of_none (htaken : s.takenDown a = none) (hcreating : s.creating a = none) :
    KeepsMarked s a := by
  rw [KeepsMarked, htaken, hcreating]
  exact ⟨nofun, nofun⟩

/-- A client that pings is past `OpenSharedMemory`. -/
theorem pingsReady_of_openedOnReady (hopened : OpenedOnReady s) (a : Action Host) :
    PingsReady s a := by
  have hping : ∀ (i : ℕ) (p : Process Host),
      (s.running i).filter (fun p => p.next = some .pingAll) = some p → s.ReadyOn p.host := by
    intro i p hp
    obtain ⟨hrunning, hnext⟩ := Option.filter_eq_some_iff.mp hp
    obtain ⟨hproc, hexited⟩ := Option.filter_eq_some_iff.mp hrunning
    exact hopened p (List.mem_of_getElem? hproc)
      ⟨by simpa using hexited, Or.inr (of_decide_eq_true hnext)⟩
  cases a with
  | call i => exact hping i
  | raise i sent => exact hping i
  | start host hosts test nodeId => exact nofun
  | handleStop i => exact nofun

end Conditions

variable [DecidableEq Host]

instance (s : Port Host) (a : Action Host) : Decidable (PingsReady s a) :=
  inferInstanceAs (Decidable (∀ p ∈ s.pinging a, _))

instance (s : Port Host) (a : Action Host) : Decidable (KeepsMarked s a) :=
  inferInstanceAs (Decidable ((∀ p ∈ s.takenDown a, _) ∧ ∀ p ∈ s.creating a, _))

instance (s : Port Host) (a : Action Host) : Decidable (KeepsOpened s a) :=
  inferInstanceAs (Decidable (∀ p ∈ s.takenDown a, _))

namespace Port

variable {s : Port Host} {i j : ℕ} {p : Process Host} {e : Effect Host} {host : Host}

/-- **A host stays served** where the step leaves its process as ready as it was. -/
theorem ReadyOn.after (h : s.ReadyOn host) (hp : s.procs[i]? = some p)
    (hkeep : p.host = host → p.Ready → e.proc.host = host ∧ e.proc.Ready) :
    (s.after i e).ReadyOn host := by
  obtain ⟨j, q, hq, hhost, hready⟩ := readyOn_iff.mp h
  refine readyOn_iff.mpr ?_
  rcases eq_or_ne j i with rfl | hj
  · obtain rfl := Option.some.inj (hp.symm.trans hq)
    exact ⟨j, e.proc, procs_after_self hp, hkeep hhost hready⟩
  · exact ⟨j, q.askToStop e.stops, by rw [procs_after_of_ne hj, hq]; rfl, by simpa using hhost,
      by simpa using hready⟩

/-- A step that makes no process ready serves no further host. -/
theorem readyOn_of_after (hp : s.procs[i]? = some p) (hhost : e.proc.host = p.host)
    (hready : e.proc.Ready → p.Ready) (h : (s.after i e).ReadyOn host) : s.ReadyOn host := by
  obtain ⟨j, q, hq, hqhost, hqready⟩ := readyOn_iff.mp h
  refine readyOn_iff.mpr ?_
  rcases eq_or_ne j i with rfl | hj
  · obtain rfl := Option.some.inj ((procs_after_self hp).symm.trans hq)
    exact ⟨j, p, hp, hhost.symm.trans hqhost, hready hqready⟩
  · rw [procs_after_of_ne hj] at hq
    obtain ⟨r, hr, rfl⟩ := Option.map_eq_some_iff.mp hq
    exact ⟨j, r, hr, by simpa using hqhost, by simpa using hqready⟩

/-! ## One listener per host -/

/-- At most one server engine listens on a host. -/
def OneListener (s : Port Host) : Prop :=
  ∀ (i j : ℕ) (p q : Process Host), s.procs[i]? = some p → s.procs[j]? = some q →
    p.server = .live → q.server = .live → p.host = q.host → i = j

/-- A process that makes an engine makes it on a host where none listens. -/
theorem OneListener.after (h : s.OneListener) (hp : s.procs[i]? = some p)
    (hhost : e.proc.host = p.host)
    (hserver : e.proc.server = .live → p.server = .live ∨ ¬ s.Listening p.host) :
    (s.after i e).OneListener := by
  have hother : ∀ j q, j ≠ i → (s.after i e).procs[j]? = some q → q.server = .live →
      q.host = p.host → e.proc.server ≠ .live := by
    intro j q hj hq hlive hqhost hproc
    rw [procs_after_of_ne hj] at hq
    obtain ⟨r, hr, rfl⟩ := Option.map_eq_some_iff.mp hq
    rw [askToStop_server] at hlive
    rw [askToStop_host] at hqhost
    rcases hserver hproc with hplive | hnone
    · exact hj (h j i r p hr hp hlive hplive hqhost)
    · exact hnone ⟨r, List.mem_of_getElem? hr, hqhost, hlive⟩
  intro j k q r hq hr hqlive hrlive hsame
  by_contra hne
  rcases eq_or_ne j i with rfl | hj
  · obtain rfl := Option.some.inj ((procs_after_self hp).symm.trans hq)
    exact hother k r (Ne.symm hne) hr hrlive (hsame.symm.trans hhost) hqlive
  · rcases eq_or_ne k i with rfl | hk
    · obtain rfl := Option.some.inj ((procs_after_self hp).symm.trans hr)
      exact hother j q hj hq hqlive (hsame.trans hhost) hrlive
    · rw [procs_after_of_ne hj] at hq
      rw [procs_after_of_ne hk] at hr
      obtain ⟨q', hq', rfl⟩ := Option.map_eq_some_iff.mp hq
      obtain ⟨r', hr', rfl⟩ := Option.map_eq_some_iff.mp hr
      simp only [askToStop_server, askToStop_host] at hqlive hrlive hsame
      exact hne (h j k q' r' hq' hr' hqlive hrlive hsame)

/-- **The host of a ready server that goes has none left.** -/
theorem OneListener.not_readyOn_after (h : s.OneListener) (hp : s.procs[i]? = some p)
    (hready : p.Ready) (hgone : ¬ e.proc.Ready) : ¬ (s.after i e).ReadyOn p.host := by
  intro hafter
  obtain ⟨j, q, hq, hhost, hqready⟩ := readyOn_iff.mp hafter
  rcases eq_or_ne j i with rfl | hj
  · obtain rfl := Option.some.inj ((procs_after_self hp).symm.trans hq)
    exact hgone hqready
  · rw [procs_after_of_ne hj] at hq
    obtain ⟨r, hr, rfl⟩ := Option.map_eq_some_iff.mp hq
    rw [askToStop_host] at hhost
    rw [ready_askToStop] at hqready
    exact hj (h j i r p hr hp hqready.1 hready.1 hhost)

end Port

/-! ## A step on the port -/

variable {s s' : Port Host} {i : ℕ} {p : Process Host} {e : Effect Host} {a : Action Host}

/-- **What a call that returns leaves**: its process on its host, as ready as it was, and a new
engine only where none listens. -/
theorem returns_spec {call : MainCall} (hp : s.procs[i]? = some p) (h : call.returns s p = some e) :
    e.proc.host = p.host ∧ (p.Ready → e.proc.Ready) ∧
      (e.proc.server = .live → p.server = .live ∨ ¬ s.Listening p.host) ∧
      (e.shm = true → call = .createNewSharedMemory ∨ s.shm p.host = true) := by
  cases call
  case thalliumServerInit =>
    obtain ⟨hnone, he⟩ := Option.ite_none_left_eq_some.mp h
    obtain rfl := Option.some.inj he
    exact ⟨rfl, fun hready => absurd ⟨p, List.mem_of_getElem? hp, rfl, hready.1⟩ hnone,
      fun _ => Or.inr hnone, Or.inr⟩
  case runnerServerInit =>
    obtain ⟨-, he⟩ := Option.ite_none_right_eq_some.mp h
    obtain rfl := Option.some.inj he
    exact ⟨rfl, fun hready => ⟨hready.1, List.mem_cons_of_mem _ hready.2⟩, Or.inl, Or.inr⟩
  case destroySharedMemory =>
    obtain rfl := Option.some.inj h
    exact ⟨rfl, id, Or.inl, nofun⟩
  case createNewSharedMemory =>
    obtain rfl := Option.some.inj h
    exact ⟨rfl, id, Or.inl, fun _ => Or.inl rfl⟩
  case clientInit =>
    obtain rfl := Option.some.inj h
    exact ⟨rfl, id, Or.inl, Or.inr⟩
  all_goals
    obtain ⟨-, he⟩ := Option.ite_none_right_eq_some.mp h
    obtain rfl := Option.some.inj he
    exact ⟨rfl, id, Or.inl, Or.inr⟩

theorem oneListener_moves (h : s.OneListener) (hmoves : Moves s a s') : s'.OneListener := by
  cases hmoves with
  | start host hosts test nodeId =>
    have hnew : ∀ (new : Process Host), new.server ≠ .live → ∀ (j : ℕ) (q : Process Host),
        (s.procs ++ [new])[j]? = some q → q.server = .live → s.procs[j]? = some q := by
      intro new hdead j q hq hlive
      rw [List.getElem?_append] at hq
      split at hq
      · exact hq
      · obtain rfl := List.mem_singleton.mp (List.mem_of_getElem? hq)
        exact absurd hlive hdead
    have hdead : Engine.absent ≠ .live := nofun
    intro j k q r hq hr hqlive hrlive hsame
    exact h j k q r (hnew _ hdead j q hq hqlive) (hnew _ hdead k r hr hrlive) hqlive hrlive hsame
  | call hp _ he =>
    have hproc := Port.getElem?_of_running hp
    obtain ⟨hhost, -, hserver, -⟩ := returns_spec hproc he
    exact h.after hproc hhost hserver
  | exit hp _ => exact h.after (Port.getElem?_of_running hp) rfl nofun
  | raise hp => exact h.after (Port.getElem?_of_running hp) rfl nofun
  | handleStop hp => exact h.after hp rfl nofun

/-- **The meaning of the shared memory is kept** exactly if it is on the host of the step. -/
theorem markerMeansReady_after_iff (hmark : MarkerMeansReady s) (hp : s.procs[i]? = some p)
    (hhost : e.proc.host = p.host) :
    MarkerMeansReady (s.after i e) ↔ (e.shm = true → (s.after i e).ReadyOn p.host) := by
  have hshm : (s.after i e).shm = Function.update s.shm p.host e.shm := hhost ▸ rfl
  constructor
  · intro h hset
    refine h p.host ?_
    rw [hshm, Function.update_self, hset]
  · intro h host hset
    rw [hshm] at hset
    rcases eq_or_ne host p.host with rfl | hne
    · rw [Function.update_self] at hset
      exact h hset
    · rw [Function.update_of_ne hne] at hset
      exact (hmark host hset).after hp fun hsame => absurd hsame.symm hne

/-- **A step that takes a process down** keeps the meaning exactly if the process was no ready
server of a host with shared memory. -/
theorem markerMeansReady_down_iff (hone : s.OneListener) (hmark : MarkerMeansReady s)
    (hp : s.procs[i]? = some p) (hhost : e.proc.host = p.host) (hshm : e.shm = s.shm p.host)
    (hgone : ¬ e.proc.Ready) :
    MarkerMeansReady (s.after i e) ↔ (p.Ready → s.shm p.host = false) := by
  rw [markerMeansReady_after_iff hmark hp hhost, hshm]
  constructor
  · intro h hready
    exact Bool.eq_false_iff.mpr fun hset => hone.not_readyOn_after hp hready hgone (h hset)
  · intro h hset
    exact (hmark p.host hset).after hp fun _ hready => absurd hset (Bool.eq_false_iff.mp (h hready))

/-- A call that returns keeps the meaning of the shared memory, except that
`CreateNewSharedMemory` wants a ready server. -/
theorem markerMeansReady_call_iff {call : MainCall} (hmark : MarkerMeansReady s)
    (hp : s.running i = some p) (hnext : p.next = some call) (he : call.returns s p = some e) :
    MarkerMeansReady (s.after i e) ↔ KeepsMarked s (.call i) := by
  have hproc := Port.getElem?_of_running hp
  obtain ⟨hhost, hkeep, -, hshm⟩ := returns_spec hproc he
  have htaken : s.takenDown (.call i) = none := by simp [Port.takenDown, hp, hnext]
  rw [markerMeansReady_after_iff hmark hproc hhost]
  by_cases hcreate : call = .createNewSharedMemory
  · subst hcreate
    obtain rfl := Option.some.inj he
    have hcreating : s.creating (.call i) = some p := by simp [Port.creating, hp, hnext]
    rw [keepsMarked_iff_of_creating htaken hcreating]
    exact ⟨fun hafter => Port.readyOn_of_after hproc rfl id (hafter rfl),
      fun hready _ => hready.after hproc fun hphost hpready => ⟨hphost, hpready⟩⟩
  · have hcreating : s.creating (.call i) = none := by simp [Port.creating, hp, hnext, hcreate]
    refine iff_of_true (fun hset => ?_) (keepsMarked_of_none htaken hcreating)
    have hmarked : s.shm p.host = true := (hshm hset).resolve_left hcreate
    exact (hmark p.host hmarked).after hproc
      fun hphost hpready => ⟨hhost.trans hphost, hkeep hpready⟩

/-- **A step keeps the meaning of the shared memory exactly if it keeps the hosts with shared memory
served.** -/
theorem markerMeansReady_step_iff (hone : s.OneListener) (hmark : MarkerMeansReady s)
    (h : step s a = some s') : MarkerMeansReady s' ↔ KeepsMarked s a := by
  cases moves_of_step h with
  | start host hosts test nodeId =>
    refine iff_of_true (fun host' hset => ?_) (keepsMarked_of_none rfl rfl)
    obtain ⟨q, hq, hready⟩ := hmark host' hset
    exact ⟨q, List.mem_append_left _ hq, hready⟩
  | call hp hnext he => exact markerMeansReady_call_iff hmark hp hnext he
  | @exit i p hp hnext =>
    have htaken : s.takenDown (.call i) = some p := by simp [Port.takenDown, hp, hnext]
    have hcreating : s.creating (.call i) = none := by simp [Port.creating, hp, hnext]
    rw [keepsMarked_iff_of_takenDown htaken hcreating]
    exact markerMeansReady_down_iff hone hmark (Port.getElem?_of_running hp) rfl rfl
      p.not_ready_exit
  | @raise i sent p stops hp =>
    rw [keepsMarked_iff_of_takenDown (a := .raise i sent) hp rfl]
    exact markerMeansReady_down_iff hone hmark (Port.getElem?_of_running hp) rfl rfl
      p.not_ready_exit
  | @handleStop i p hp =>
    rw [keepsMarked_iff_of_takenDown (a := .handleStop i) hp rfl]
    exact markerMeansReady_down_iff hone hmark hp rfl rfl
      p.not_ready_stopThisDaemon

/-! ## Clients past `OpenSharedMemory` -/

/-- **A host stays served** where the step takes down no ready server of it. -/
theorem readyOn_step {host : Host} (h : step s a = some s') (hready : s.ReadyOn host)
    (hkeep : ∀ p ∈ s.takenDown a, p.Ready → p.host ≠ host) : s'.ReadyOn host := by
  cases moves_of_step h with
  | start host' hosts test nodeId =>
    obtain ⟨q, hq, hqready⟩ := hready
    exact ⟨q, List.mem_append_left _ hq, hqready⟩
  | call hp _ he =>
    have hproc := Port.getElem?_of_running hp
    obtain ⟨hhost, hcall, -, -⟩ := returns_spec hproc he
    exact hready.after hproc fun hphost hpready => ⟨hhost.trans hphost, hcall hpready⟩
  | @exit i p hp hnext =>
    have htaken : s.takenDown (.call i) = some p := by simp [Port.takenDown, hp, hnext]
    exact hready.after (Port.getElem?_of_running hp)
      fun hphost hpready => absurd hphost (hkeep p htaken hpready)
  | @raise i sent p stops hp =>
    exact hready.after (Port.getElem?_of_running hp)
      fun hphost hpready => absurd hphost (hkeep p hp hpready)
  | @handleStop i p hp =>
    exact hready.after hp fun hphost hpready => absurd hphost (hkeep p hp hpready)

/-- A call that returns takes its process past `OpenSharedMemory` only where it finds the shared
memory. -/
theorem pastOpen_or_of_returns {call : MainCall} (hnext : p.next = some call)
    (he : call.returns s p = some e) (h : e.proc.PastOpen) :
    p.PastOpen ∨ s.shm p.host = true := by
  have hdone : p.done.PastOpen := by
    cases call
    case thalliumServerInit =>
      obtain ⟨-, he⟩ := Option.ite_none_left_eq_some.mp he
      obtain rfl := Option.some.inj he
      exact h
    case destroySharedMemory | createNewSharedMemory | clientInit =>
      obtain rfl := Option.some.inj he
      exact h
    all_goals
      obtain ⟨-, he⟩ := Option.ite_none_right_eq_some.mp he
      obtain rfl := Option.some.inj he
      exact h
  refine (Process.pastOpen_or_of_done hdone).imp_right fun hopen => ?_
  obtain rfl := Option.some.inj (hnext.symm.trans hopen)
  exact (Option.ite_none_right_eq_some.mp he).1

/-- **Where the clients past `OpenSharedMemory` come from**: a step takes one there only where it
finds the shared memory, and takes nothing down then. -/
theorem pastOpen_step {q : Process Host} (h : step s a = some s') (hq : q ∈ s'.procs)
    (hopen : q.PastOpen) : ∃ r ∈ s.procs, r.host = q.host ∧
      (r.PastOpen ∨ s.takenDown a = none ∧ s.shm r.host = true) := by
  have hafter : ∀ {i : ℕ} {p : Process Host} {e : Effect Host}, q ∈ (s.after i e).procs →
      s.procs[i]? = some p → e.proc.host = p.host →
      (e.proc.PastOpen → p.PastOpen ∨ s.takenDown a = none ∧ s.shm p.host = true) →
      ∃ r ∈ s.procs, r.host = q.host ∧
        (r.PastOpen ∨ s.takenDown a = none ∧ s.shm r.host = true) := by
    intro i p e hq hp hhost hproc
    rcases List.mem_or_eq_of_mem_set hq with hold | rfl
    · obtain ⟨r, hr, rfl⟩ := List.mem_map.mp hold
      exact ⟨r, hr, (askToStop_host _ _).symm, Or.inl ((pastOpen_askToStop _ _).mp hopen)⟩
    · exact ⟨p, List.mem_of_getElem? hp, hhost.symm, hproc hopen⟩
  cases moves_of_step h with
  | start host hosts test nodeId =>
    rcases List.mem_append.mp hq with hq | hq
    · exact ⟨q, hq, rfl, Or.inl hopen⟩
    · obtain rfl := List.mem_singleton.mp hq
      exact absurd rfl (Process.pc_ne_zero_of_pastOpen hopen)
  | @call i p call e hp hnext he =>
    have hproc := Port.getElem?_of_running hp
    have htaken : s.takenDown (.call i) = none := by simp [Port.takenDown, hp, hnext]
    exact hafter hq hproc (returns_spec hproc he).1
      fun hpast => (pastOpen_or_of_returns hnext he hpast).imp_right fun hset => ⟨htaken, hset⟩
  | exit hp _ => exact hafter hq (Port.getElem?_of_running hp) rfl fun hpast => absurd hpast.1 nofun
  | raise hp => exact hafter hq (Port.getElem?_of_running hp) rfl fun hpast => absurd hpast.1 nofun
  | handleStop hp => exact hafter hq hp rfl Or.inl

theorem openedOnReady_step (hmark : MarkerMeansReady s) (hopened : OpenedOnReady s)
    (hkeep : KeepsOpened s a) (h : step s a = some s') : OpenedOnReady s' := by
  intro q hq hopen
  obtain ⟨r, hr, hhost, hpast | ⟨htaken, hset⟩⟩ := pastOpen_step h hq hopen
  · rw [← hhost]
    exact readyOn_step h (hopened r hr hpast)
      fun p hp hready hsame => hkeep p hp hready r hr hpast hsame.symm
  · rw [← hhost]
    exact readyOn_step h (hmark r.host hset) fun p hp => absurd (htaken.symm.trans hp) nofun

end Marker

/-! ## Runs -/

section Runs

variable {Host : Type*} [DecidableEq Host]

/-- **When the shared memory means what the client takes it to mean.**  It means a ready server in
every state of a run exactly if every step keeps the hosts with shared memory served; and every
client that pings has a ready server on its host if, besides, every step keeps the clients past
`OpenSharedMemory` served. -/
theorem markerMeansReady_iff (run : List (Action Host)) :
    (EveryState step MarkerMeansReady (initial : Port Host) run ↔
      EveryStep step KeepsMarked initial run) ∧
    (EveryStep step (fun s a => KeepsMarked s a ∧ KeepsOpened s a) (initial : Port Host) run →
      EveryStep step PingsReady initial run) := by
  have hone : (initial : Port Host).OneListener :=
    fun _ _ _ _ hp => absurd (List.mem_of_getElem? hp) List.not_mem_nil
  have hmark : MarkerMeansReady (initial : Port Host) :=
    fun _ hset => absurd hset Bool.false_ne_true
  have hopened : OpenedOnReady (initial : Port Host) := fun _ hp => absurd hp List.not_mem_nil
  refine ⟨everyState_iff_everyStep (fun _ _ _ h hstep => oneListener_moves h (moves_of_step hstep))
    (fun _ _ _ h hm hstep => markerMeansReady_step_iff h hm hstep) hone hmark, fun hrun => ?_⟩
  have hserved : EveryState step (fun s => s.OneListener ∧ MarkerMeansReady s ∧ OpenedOnReady s)
      (initial : Port Host) run := by
    refine everyState_of_everyStep ?_ ⟨hone, hmark, hopened⟩ hrun
    rintro s a s' ⟨h, hm, ho⟩ ⟨hkeep, hkeep'⟩ hstep
    exact ⟨oneListener_moves h (moves_of_step hstep),
      (markerMeansReady_step_iff h hm hstep).mpr hkeep, openedOnReady_step hm ho hkeep' hstep⟩
  exact everyStep_of_everyState (fun _ a _ h _ => pingsReady_of_openedOnReady h.2.2 a) hserved

end Runs

/-- A server of one node, up to `RunDaemon`. -/
def serverUp : List (Action String) :=
  [.start "localhost" ["localhost"] "server" 1, .call 0, .call 0, .call 0, .call 0]

/-- The client of that node, up to `StopAllDaemons`. -/
def clientUp : List (Action String) :=
  [.start "localhost" ["localhost"] "client" 1, .call 1, .call 1, .call 1]

/-- The client stops the server and destroys the shared memory before the server is gone. -/
def cleanRun : List (Action String) :=
  serverUp ++ clientUp ++ [.call 1, .call 1, .call 1, .handleStop 0, .call 0, .call 0]

theorem markerMeansReady_iff_cleanRun :
    EveryState step MarkerMeansReady (initial : Port String) cleanRun ∧
      EveryStep step PingsReady (initial : Port String) cleanRun :=
  ⟨(markerMeansReady_iff cleanRun).1.mpr (by decide), (markerMeansReady_iff cleanRun).2 (by decide)⟩

/-- `StopAllDaemons` of the client throws once the server has been asked to stop: the client exits,
the server stops, and the next client finds the shared memory. -/
def leftBehindRun : List (Action String) :=
  serverUp ++ clientUp ++ [.raise 1 1, .handleStop 0, .call 0, .call 0] ++
    [.start "localhost" ["localhost"] "client" 1, .call 2, .call 2, .raise 2 0]

/-- **The shared memory outlives the server**, and a client that takes it at its word pings a host
without one. -/
theorem not_markerMeansReady_leftBehindRun :
    (exec step (initial : Port String) leftBehindRun).map
        (fun s => (s.shm "localhost", s.procs.map fun p => (p.exited, p.server)))
      = some (true, [(true, .absent), (true, .absent), (true, .absent)]) ∧
    ¬ EveryState step MarkerMeansReady (initial : Port String) leftBehindRun ∧
    ¬ EveryStep step PingsReady (initial : Port String) leftBehindRun := by
  have hend : (exec step (initial : Port String) leftBehindRun).map
      (fun s => (s.shm "localhost", s.procs.map fun p => (p.exited, p.server)))
      = some (true, [(true, .absent), (true, .absent), (true, .absent)]) := by decide
  refine ⟨hend, fun hrun => ?_, by decide⟩
  obtain ⟨s, hexec, hs⟩ := Option.map_eq_some_iff.mp hend
  obtain ⟨hshm, hprocs⟩ := Prod.mk.inj hs
  obtain ⟨p, hp, -, hready⟩ := hrun.last hexec "localhost" hshm
  have hgone := List.mem_map_of_mem (f := fun p => (p.exited, p.server)) hp
  rw [hprocs] at hgone
  obtain ⟨-, habsent⟩ : p.exited = true ∧ p.server = .absent := by simpa using hgone
  exact absurd (habsent.symm.trans hready.1) nofun

end ChiNettest.Ping
