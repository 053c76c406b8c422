import ChiNettest.Launcher.CommandLine
import ChiNettest.Ping.Client
import ChiNettest.Rpc.Deployment

/-!
# Ping/CommandLine — `chi_net_ping` from its arguments to its last call

    argv  ──PingInit──▸  ServerConfig  ──ServerInit──▸  node id  ──main──▸  calls

`PingInit` takes its words in an order of its own and sets the number of threads itself.  Which
process pings is up to the host file: the client of the machine that heads it does, and with `local`
every client does (`chiNetPing_pings_iff`).
-/

namespace ChiNettest

/-! ## Who starts -/

section Starts

variable {res : Resolver} {fab : Fabric} {config : ServerConfig} {ctx₀ ctx : RpcContext}

/-- **A machine gets past `ServerInit`**: every name of the host file has an address, and one is its
own. -/
def Starts (res : Resolver) (fab : Fabric) (names : List String) : Prop :=
  (∀ name ∈ names, (addressOf res name).isSome) ∧ ∃ i, LocalAt res fab names i

/-- A line that is the machine's is not before the first. -/
theorem exists_firstLine_of_localAt {names : List String} {i : ℕ}
    (h : LocalAt res fab names i) : ∃ j, FirstLine res fab names j := by
  classical
  exact ⟨Nat.find ⟨i, h⟩, Nat.find_spec ⟨i, h⟩, fun _ hj => Nat.find_min ⟨i, h⟩ hj⟩

/-- **In either mode.** -/
theorem serverInit_starts_iff (hfresh : ctx₀.hosts = [])
    (hshort : config.rpc.hostNames.length < 2 ^ 31) :
    (∃ ctx, ctx₀.serverInit res fab config = .ok ctx) ↔
      Starts res fab config.rpc.hostNames := by
  constructor
  · rintro ⟨ctx, hctx⟩
    obtain ⟨hosts, i, host, hhosts, hfirst, -, -, -⟩ := RpcContext.serverInit_of_fresh hfresh hctx
    exact ⟨emplaceHosts_ok_iff.mp ⟨hosts, hhosts⟩, i,
      (localAt_iff hhosts).mpr ⟨host, hfirst.entry, hfirst.isLocal⟩⟩
  · rintro ⟨hnames, i, hlocal⟩
    obtain ⟨hosts, hhosts⟩ := emplaceHosts_ok_iff.mpr hnames
    obtain ⟨j, hline⟩ := exists_firstLine_of_localAt hlocal
    obtain ⟨host, hfirst⟩ := (firstLine_iff hhosts).mp hline
    have hlen := length_emplaceHosts hhosts
    have hj : j < hosts.length := (List.getElem?_eq_some_iff.mp hfirst.entry).1
    obtain ⟨hfound, hgood⟩ := findThisHost_of_first hfirst (by omega)
    have hindex : (UInt32.ofInt (j + 1 : ℕ) - 1).toNat = j := by
      rw [(toNat_sub_one_lt hgood).1, toNat_ofInt_nat (by omega), Nat.add_sub_cancel]
    rw [RpcContext.serverInit, if_neg (by simp [hfresh]), hhosts, except_ok_bind, hfound,
      except_ok_bind, if_neg hgood]
    split
    · rw [hindex, hfirst.entry]
      exact ⟨_, rfl⟩
    · exact ⟨_, rfl⟩

/-- **Node 1 is the machine that heads the host file**, and with `local` every machine. -/
theorem nodeId_eq_one_iff (hfresh : ctx₀.hosts = [])
    (h : ctx₀.serverInit res fab config = .ok ctx) :
    ctx.nodeId = 1 ↔ config.localOnly = true ∨ LocalAt res fab config.rpc.hostNames 0 := by
  obtain ⟨hosts, i, host, hhosts, hfirst, hlt, -, rfl⟩ := RpcContext.serverInit_of_fresh hfresh h
  have hline : FirstLine res fab config.rpc.hostNames i := (firstLine_iff hhosts).mpr ⟨host, hfirst⟩
  have hzero : i = 0 ↔ LocalAt res fab config.rpc.hostNames 0 := by
    constructor
    · rintro rfl
      exact hline.isLocal
    · intro hlocal
      by_contra hne
      exact hline.first 0 (Nat.pos_of_ne_zero hne) hlocal
  cases hmode : config.localOnly with
  | true => simp
  | false =>
    have hid : (UInt32.ofInt (i + 1 : ℕ)).toNat = i + 1 := toNat_ofInt_nat (by omega)
    have hone : UInt32.ofInt (i + 1 : ℕ) = 1 ↔ i = 0 := by
      rw [← UInt32.toNat_inj, hid]
      exact Nat.succ_inj
    rw [← hzero, ← hone]
    simp

end Starts

/-! ## `PingInit` -/

/-- The text `PingInit` reports a wrong number of arguments with. -/
def pingUsage (argc : ℤ) : String :=
  "Only got " ++ toString (argc - 1) ++ "/6 params. " ++
    "Usage: <hostfile> <provider> <domain> <port> <test (client, " ++
    "server, touchserver)> " ++ "<local, all>"

/-- `ServerConfig::PingInit`. -/
def pingInit (lib : ConfigParse) (argv : List String) (self : BenchmarkConfig) :
    Except Exn BenchmarkConfig :=
  match argv with
  | [_, hostFile, protocol, domain, port, test, mode] => do
    let hostFile := lib.expandPath hostFile
    let hostNames := hostNamesOf lib hostFile self.rpc.hostNames
    let port ← readInt port
    return { self with
      hostFile := hostFile
      rpc := { hostNames, protocol, domain, port, numThreads := 2 }
      test := test
      localOnly := mode = "local" }
  | _ => .error (.fatal (pingUsage argv.length))

/-- What `PingInit` makes of seven words. -/
theorem pingInit_eq (lib : ConfigParse) (argv0 hostFile protocol domain test mode : String)
    (self : BenchmarkConfig) {port : String} {n : ℤ} (hport : readInt port = .ok n) :
    ∃ info, pingInit lib [argv0, hostFile, protocol, domain, port, test, mode] self = .ok info ∧
      info.rpc.hostNames = hostNamesOf lib (lib.expandPath hostFile) self.rpc.hostNames ∧
      info.test = test ∧ info.localOnly = decide (mode = "local") := by
  rw [pingInit, hport]
  exact ⟨_, rfl, rfl, rfl, rfl⟩

namespace Ping

open Prog

/-- `main` of `chi_net_ping`, from its arguments on: what it calls, and its exit status. -/
def chiNetPing (lib : ConfigParse) (res : Resolver) (fab : Fabric)
    (ends : MainCall → Except Exn Unit) (self : BenchmarkConfig) (rpc : RpcContext)
    (argv : List String) : Prog Exn (List MainCall) ℕ := do
  let info ← lift (pingInit lib argv self)
  let rpc ← lift (rpc.serverInit res fab info.toServerConfig)
  main ends info.test rpc.nodeId

section Calls

variable {ends : MainCall → Except Exn Unit}

theorem performed_subset : ∀ {calls : List MainCall} {call : MainCall},
    call ∈ performed ends calls → call ∈ calls
  | [], _, h => h
  | first :: calls, call, h => by
      rw [performed] at h
      cases hends : ends first with
      | ok _ =>
        rw [hends] at h
        rcases List.mem_cons.mp h with rfl | h
        · exact List.mem_cons_self
        · exact List.mem_cons_of_mem first (performed_subset h)
      | error _ =>
        rw [hends] at h
        exact List.mem_singleton.mp h ▸ List.mem_cons_self

/-- **When `main` pings**: as the client of node 1, once it has found the shared memory and made a
client engine. -/
theorem pingAll_mem_performed (test : String) (nodeId : ℕ) :
    .pingAll ∈ performed ends (mainCalls test nodeId) ↔
      (test = "client" ∧ nodeId = 1) ∧ ends .openSharedMemory = .ok () ∧
        ends .clientInit = .ok () := by
  by_cases hclient : test = "client" ∧ nodeId = 1
  · have hcalls : mainCalls test nodeId = [.openSharedMemory, .clientInit, .pingAll,
        .stopAllDaemons, .destroySharedMemory] := by
      obtain ⟨rfl, rfl⟩ := hclient
      rfl
    rw [hcalls, and_iff_right hclient]
    cases hopen : ends .openSharedMemory with
    | error _ => simp [performed, hopen]
    | ok _ =>
      cases hinit : ends .clientInit with
      | error _ => simp [performed, hopen, hinit]
      | ok _ => cases hping : ends .pingAll <;> simp [performed, hopen, hinit, hping]
  · refine iff_of_false (fun h => ?_) fun h => hclient h.1
    have hmem := performed_subset h
    rw [mainCalls, if_neg hclient, List.append_nil] at hmem
    rcases List.mem_append.mp hmem with hmem | hmem
    · split at hmem <;> simp at hmem
    · split at hmem <;> simp at hmem

end Calls

/-- **What `chi_net_ping` does with its arguments**, the port a number and the host file short
enough to count.  It gets to its calls exactly if it `Starts`; then it makes those of its test and
its node id up to the first that does not return, and that one decides the exit status.  It pings
exactly if it is a client, its machine heads the host file or it is run with `local`, and it has
found the shared memory and made its engine. -/
theorem chiNetPing_pings_iff {lib : ConfigParse} {res : Resolver} {fab : Fabric}
    {ends : MainCall → Except Exn Unit} {self : BenchmarkConfig} {rpc : RpcContext}
    (hfresh : rpc.hosts = []) {argv0 hostFile protocol domain port test mode : String}
    {names : List String}
    (hnames : hostNamesOf lib (lib.expandPath hostFile) self.rpc.hostNames = names)
    (hshort : names.length < 2 ^ 31) {n : ℤ} (hport : readInt port = .ok n) :
    ∃ status log, (chiNetPing lib res fab ends self rpc
        [argv0, hostFile, protocol, domain, port, test, mode]).run [] = some (status, log) ∧
      (Starts res fab names → ∃ nodeId : ℕ,
        (nodeId = 1 ↔ mode = "local" ∨ LocalAt res fab names 0) ∧
        log = performed ends (mainCalls test nodeId) ∧
        status = exitStatus (failure ends (mainCalls test nodeId))) ∧
      (¬ Starts res fab names → log = [] ∧ ∃ e, status = .error e) ∧
      (.pingAll ∈ log ↔ Starts res fab names ∧ test = "client" ∧
        (mode = "local" ∨ LocalAt res fab names 0) ∧
        ends .openSharedMemory = .ok () ∧ ends .clientInit = .ok ()) := by
  obtain ⟨info, hinfo, hrpc, htest, hlocal⟩ :=
    pingInit_eq lib argv0 hostFile protocol domain test mode self hport
  rw [hnames] at hrpc
  have hstarts : (∃ ctx, rpc.serverInit res fab info.toServerConfig = .ok ctx) ↔
      Starts res fab info.rpc.hostNames := serverInit_starts_iff hfresh (hrpc ▸ hshort)
  have hparsed : (lift (pingInit lib [argv0, hostFile, protocol, domain, port, test, mode] self) :
      Prog Exn (List MainCall) BenchmarkConfig).run [] = some (.ok info, []) := by
    rw [run_lift, hinfo]
  rw [chiNetPing, run_bind_ok hparsed]
  rw [hrpc] at hstarts
  cases hctx : rpc.serverInit res fab info.toServerConfig with
  | ok ctx =>
    have hyes : Starts res fab names := hstarts.mp ⟨ctx, hctx⟩
    have hone : ctx.nodeId.toNat = 1 ↔ mode = "local" ∨ LocalAt res fab names 0 := by
      have hid := nodeId_eq_one_iff hfresh hctx
      rw [hrpc, hlocal, decide_eq_true_iff] at hid
      exact UInt32.toNat_inj.trans hid
    rw [run_bind_ok (run_lift _ _), run_main, htest]
    refine ⟨_, _, rfl, fun _ => ⟨ctx.nodeId.toNat, hone, rfl, rfl⟩, fun hno => absurd hyes hno, ?_⟩
    rw [pingAll_mem_performed, hone, and_iff_right hyes, and_assoc]
  | error e =>
    have hno : ¬ Starts res fab names := fun hyes => by
      obtain ⟨ctx, hok⟩ := hstarts.mpr hyes
      cases hctx.symm.trans hok
    rw [run_bind_error (run_lift _ _)]
    refine ⟨_, _, rfl, fun hyes => absurd hyes hno, fun _ => ⟨rfl, e, rfl⟩, ?_⟩
    exact iff_of_false List.not_mem_nil fun h => hno h.1

/-- Calls that all return, but for `StopAllDaemons`. -/
def stopThrows (call : MainCall) : Except Exn Unit :=
  if call = .stopAllDaemons then .error .margo else .ok ()

/-- The client of the first of two machines pings. -/
theorem chiNetPing_pings_iff_firstMachine :
    ∃ status log, (chiNetPing { plainPaths with parseHostfile := fun _ => ["10.0.0.1", "10.0.0.2"] }
        addressesOnly (oneInterface ⟨10, 0, 0, 1⟩) stopThrows blankConfig freshContext
        ["chi_net_ping", "hosts", "sockets", "", "8080", "client", "all"]).run []
        = some (status, log) ∧ .pingAll ∈ log := by
  have hlocal : LocalAt addressesOnly (oneInterface ⟨10, 0, 0, 1⟩) ["10.0.0.1", "10.0.0.2"] 0 :=
    ⟨"10.0.0.1", "10.0.0.1", rfl, by decide, by decide⟩
  obtain ⟨status, log, hrun, -, -, hpings⟩ := @chiNetPing_pings_iff
    { plainPaths with parseHostfile := fun _ => ["10.0.0.1", "10.0.0.2"] } addressesOnly
    (oneInterface ⟨10, 0, 0, 1⟩) stopThrows blankConfig freshContext rfl "chi_net_ping" "hosts"
    "sockets" "" "8080" "client" "all" ["10.0.0.1", "10.0.0.2"] rfl (by decide) 8080 (by decide)
  exact ⟨status, log, hrun, hpings.mpr ⟨⟨by decide, 0, hlocal⟩, rfl, .inr hlocal, rfl, rfl⟩⟩

end Ping

end ChiNettest
