import ChiNettest.Rpc.Context

/-!
# Rpc/Identity — the machines of one host file agree on who is who

Every machine builds its host table on its own and searches it for an address of its own.  The
table depends on the host file and the name service alone (`serverInit_hosts_eq`), so the machines
share it; what differs is where each search stops.  An address of the table that is local to one
machine is local to no other, hence the entry a search stops at is that machine's, whoever reads it
(`serverInit_identities_agree`).
-/

namespace ChiNettest

variable {res : Resolver} {fab fab' : Fabric} {config config' : ServerConfig}
  {ctx₀ ctx₀' ctx ctx' : RpcContext}

/-- **The host table does not depend on the machine.** -/
theorem serverInit_hosts_eq (hfresh : ctx₀.hosts = []) (hfresh' : ctx₀'.hosts = [])
    (hnames : config.rpc.hostNames = config'.rpc.hostNames) (hall : config.localOnly = false)
    (hall' : config'.localOnly = false) (h : ctx₀.serverInit res fab config = .ok ctx)
    (h' : ctx₀'.serverInit res fab' config' = .ok ctx') : ctx.hosts = ctx'.hosts := by
  obtain ⟨hosts, i, host, hhosts, -, -, -, rfl⟩ := RpcContext.serverInit_of_fresh hfresh h
  obtain ⟨hosts', i', host', hhosts', -, -, -, rfl⟩ := RpcContext.serverInit_of_fresh hfresh' h'
  have hsame : hosts = hosts' := by
    rw [hnames] at hhosts
    exact Except.ok.inj (hhosts.symm.trans hhosts')
  simpa [hall, hall'] using hsame

/-- **`node_id_` points at an entry of the shared table with an address of the machine**, the
resolution of some name of the host file. -/
theorem serverInit_own_entry (hfresh : ctx₀.hosts = []) (hall : config.localOnly = false)
    (h : ctx₀.serverInit res fab config = .ok ctx) :
    ¬ BadNode ctx.hosts ctx.nodeId ∧
      ∃ host name, ctx.hosts[ctx.nodeId.toNat - 1]? = some host ∧ fab.IsLocal host.ipAddr ∧
        name ∈ config.rpc.hostNames ∧ getIpAddress res name = .ok host.ipAddr := by
  obtain ⟨hosts, i, host, hhosts, hfirst, hlt, hgood, rfl⟩ :=
    RpcContext.serverInit_of_fresh hfresh h
  have hindex : (UInt32.ofInt (i + 1 : ℕ)).toNat - 1 = i := by
    rw [toNat_ofInt_nat (by omega), Nat.add_sub_cancel]
  obtain ⟨name, hname, hip, -, -⟩ := (getElem?_emplaceHosts hhosts i host).mp hfirst.entry
  simp only [hall, Bool.false_eq_true, if_false, hindex]
  exact ⟨hgood, host, name, hfirst.entry, hfirst.isLocal, List.mem_of_getElem? hname, hip⟩

/-- **Node identities agree across machines.**  Machines sharing a host file and a name service,
no resolved address being local to two of them, build one table; different machines take different
ids; and the id a machine takes is resolved, on every machine, to an address local to it and to no
other machine — so at most one of them is node 1. -/
theorem serverInit_identities_agree {M : Type*} (res : Resolver) (fab : M → Fabric)
    (names : List String) (config : M → ServerConfig) (ctx₀ : M → RpcContext)
    (hnames : ∀ m, (config m).rpc.hostNames = names) (hall : ∀ m, (config m).localOnly = false)
    (hfresh : ∀ m, (ctx₀ m).hosts = [])
    (hdisjoint : ∀ name ∈ names, ∀ addr, getIpAddress res name = .ok addr →
      ∀ m m', (fab m).IsLocal addr → (fab m').IsLocal addr → m = m')
    (m m' : M) (ctx ctx' : RpcContext)
    (h : (ctx₀ m).serverInit res (fab m) (config m) = .ok ctx)
    (h' : (ctx₀ m').serverInit res (fab m') (config m') = .ok ctx') :
    ctx.hosts = ctx'.hosts ∧
      (m ≠ m' → ctx.nodeId ≠ ctx'.nodeId) ∧
      (∀ k, ctx.nodeId = k → ∃ addr, ctx'.getIpAddressFromNodeId k = .ok addr ∧
        ∀ n, (fab n).IsLocal addr ↔ n = m) ∧
      (ctx.nodeId = 1 → ctx'.nodeId = 1 → m = m') := by
  have hhosts : ctx.hosts = ctx'.hosts :=
    serverInit_hosts_eq (hfresh m) (hfresh m') ((hnames m).trans (hnames m').symm) (hall m)
      (hall m') h h'
  obtain ⟨hgood, host, name, hentry, hlocal, hmem, hip⟩ :=
    serverInit_own_entry (hfresh m) (hall m) h
  have howner : ∀ n, (fab n).IsLocal host.ipAddr ↔ n = m := by
    refine fun n => ⟨fun hn => ?_, fun hn => hn ▸ hlocal⟩
    exact hdisjoint name (hnames m ▸ hmem) host.ipAddr hip n m hn hlocal
  have hinj : ctx.nodeId = ctx'.nodeId → m = m' := by
    intro hid
    obtain ⟨-, host', -, hentry', hlocal', -, -⟩ :=
      serverInit_own_entry (hfresh m') (hall m') h'
    have hsame : host = host' := by
      rw [← hhosts, ← hid, hentry] at hentry'
      exact Option.some.inj hentry'
    exact ((howner m').mp (hsame ▸ hlocal')).symm
  refine ⟨hhosts, fun hne hid => hne (hinj hid), ?_, fun h1 h1' => hinj (h1.trans h1'.symm)⟩
  rintro k rfl
  rw [hhosts] at hgood hentry
  obtain ⟨host', hentry', haddr⟩ := ctx'.getHostField_eq HostInfo.ipAddr .runtimeError hgood
  obtain rfl : host = host' := Option.some.inj (hentry.symm.trans hentry')
  exact ⟨host.ipAddr, haddr, howner⟩

/-! ### Two machines of one host file -/

/-- A name service that knows no name: the host file lists addresses. -/
def addressesOnly : Resolver := ⟨fun _ => .unknown, fun _ => ""⟩

/-- A machine with one interface. -/
def oneInterface (addr : InAddr) : Fabric := ⟨true, .ok [none, some addr], fun _ => ""⟩

/-- The configuration of a run over `names`. -/
def configOf (names : List String) (protocol : String) : ServerConfig where
  rpc := ⟨names, protocol, "", 8080, 4⟩
  ioSize := 0
  mdSize := 0
  rep := 1
  sleep := 0
  test := "ping"
  localOnly := false

/-- A context no `ServerInit` has run on. -/
def freshContext : RpcContext := ⟨0, "", "", [], 0, 0, configOf [] ""⟩

/-- The context of the machine that found itself at `nodeId` among `hosts`. -/
def contextAt (names : List String) (protocol : String) (hosts : List HostInfo)
    (nodeId : NodeId) : RpcContext :=
  ⟨8080, protocol, "", hosts, nodeId, 4, configOf names protocol⟩

/-- Two hosts, seen from the first. -/
def twoHosts : RpcContext :=
  contextAt ["10.0.0.1", "10.0.0.2"] "ofi+sockets"
    [⟨"10.0.0.1", "10.0.0.1", 1⟩, ⟨"10.0.0.2", "10.0.0.2", 2⟩] 1

/-- A host file that lists its first machine twice. -/
def twiceListed : List String := ["10.0.0.1", "10.0.0.1", "10.0.0.2"]

/-- The table it resolves to. -/
def twiceListedTable : List HostInfo :=
  [⟨"10.0.0.1", "10.0.0.1", 1⟩, ⟨"10.0.0.1", "10.0.0.1", 2⟩, ⟨"10.0.0.2", "10.0.0.2", 3⟩]

/-- The two machines it lists. -/
def twoMachines (n : Fin 2) : Fabric := oneInterface ⟨10, 0, 0, if n = 0 then 1 else 2⟩

theorem getIpAddress_twiceListed :
    ∀ name ∈ twiceListed, getIpAddress addressesOnly name = .ok name := by decide

theorem twiceListed_disjoint : ∀ name ∈ twiceListed, ∀ m m' : Fin 2,
    (twoMachines m).IsLocal name → (twoMachines m').IsLocal name → m = m' := by decide

theorem serverInit_identities_agree_twiceListed :
    twiceListedTable = twiceListedTable ∧
      ((0 : Fin 2) ≠ 1 → (1 : NodeId) ≠ 3) ∧
      (∀ k, (1 : NodeId) = k → ∃ addr,
        (contextAt twiceListed "ofi+sockets" twiceListedTable 3).getIpAddressFromNodeId k
          = .ok addr ∧
        ∀ n, (twoMachines n).IsLocal addr ↔ n = 0) ∧
      ((1 : NodeId) = 1 → (3 : NodeId) = 1 → (0 : Fin 2) = 1) :=
  serverInit_identities_agree addressesOnly twoMachines twiceListed
    (fun _ => configOf twiceListed "ofi+sockets") (fun _ => freshContext)
    (fun _ => rfl) (fun _ => rfl) (fun _ => rfl)
    (fun name hname addr haddr => by
      have hself : name = addr :=
        Except.ok.inj ((getIpAddress_twiceListed name hname).symm.trans haddr)
      exact hself ▸ twiceListed_disjoint name hname)
    0 1 (contextAt twiceListed "ofi+sockets" twiceListedTable 1)
    (contextAt twiceListed "ofi+sockets" twiceListedTable 3) (by decide) (by decide)

end ChiNettest
