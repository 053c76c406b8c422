import ChiNettest.Machinery.Runs
import ChiNettest.Rpc.Identity

/-!
# Rpc/HostTable — the host table over any number of `ServerInit` calls

The first `ServerInit` of a process builds the table; the later ones take their configuration over
and return.  `HostTable first ctx` is what holds of the context from the first call on: entries
numbered from one, `node_id_` the entry of this machine, and both getters total on the ids of the
table and on no other.

* `serverInit_hostTable` — the first call establishes it;
* `HostTable.takeConfig` — the later ones keep it;
* `hostTable_everyState` — so it holds after every call of a sequence.
-/

namespace ChiNettest

/-- One call of `ServerInit`: what the operating system answers during it, and its argument. -/
structure InitCall where
  res : Resolver
  fab : Fabric
  config : ServerConfig

/-- The context after a call: `none` where the call does not return. -/
def initStep (ctx : RpcContext) (call : InitCall) : Option RpcContext :=
  (ctx.serverInit call.res call.fab call.config).toOption

theorem initStep_eq_some {ctx ctx' : RpcContext} {call : InitCall} :
    initStep ctx call = some ctx' ↔
      ctx.serverInit call.res call.fab call.config = .ok ctx' := by
  rw [initStep]
  cases ctx.serverInit call.res call.fab call.config <;> simp [Except.toOption]

/-! ## A well-formed table -/

/-- **Entries are numbered from one**, in order. -/
def Numbered (hosts : List HostInfo) : Prop :=
  ∀ (i : ℕ) (host : HostInfo), hosts[i]? = some host → host.nodeId.toNat = i + 1

/-- **`host` is a host of the call's configuration with a local address, the earliest of its
list.** -/
def EarliestLocal (call : InitCall) (host : HostInfo) : Prop :=
  ∃ i : ℕ, call.config.rpc.hostNames[i]? = some host.hostname ∧
    getIpAddress call.res host.hostname = .ok host.ipAddr ∧ call.fab.IsLocal host.ipAddr ∧
    ∀ j < i, ∀ name addr, call.config.rpc.hostNames[j]? = some name →
      getIpAddress call.res name = .ok addr → ¬ call.fab.IsLocal addr

/-- **The host table of a context** whose first `ServerInit` was `first`. -/
structure HostTable (first : InitCall) (ctx : RpcContext) : Prop where
  /-- `hosts_[i].node_id_ == i + 1` -/
  numbered : Numbered ctx.hosts
  /-- `1 <= node_id_ <= NumHosts()` -/
  inRange : 1 ≤ ctx.nodeId.toNat ∧ ctx.nodeId.toNat ≤ ctx.numHosts
  /-- `hosts_[node_id_ - 1]` is this machine -/
  thisHost : ∃ host, ctx.hosts[ctx.nodeId.toNat - 1]? = some host ∧ EarliestLocal first host
  localOnly : first.config.localOnly = true → ctx.numHosts = 1 ∧ ctx.nodeId = 1
  /-- `GetIpAddressFromNodeId` returns on the ids of the table and on no other -/
  ipAnswers : ∀ nodeId, (∃ addr, ctx.getIpAddressFromNodeId nodeId = .ok addr) ↔
    1 ≤ nodeId.toNat ∧ nodeId.toNat ≤ ctx.numHosts
  /-- and so does `GetHostNameFromNodeId` -/
  nameAnswers : ∀ nodeId, (∃ name, ctx.getHostNameFromNodeId nodeId = .ok name) ↔
    1 ≤ nodeId.toNat ∧ nodeId.toNat ≤ ctx.numHosts
  /-- and both give the fields of the entry with that id -/
  fields : ∀ host ∈ ctx.hosts, ctx.getIpAddressFromNodeId host.nodeId = .ok host.ipAddr ∧
    ctx.getHostNameFromNodeId host.nodeId = .ok host.hostname

/-! ## The getters of a numbered table -/

section Getters

variable {ctx : RpcContext} (field : HostInfo → String) (bad : String → Exn)

/-- In a table shorter than `2 ^ 32` the range test is the range of the ids. -/
theorem not_badNode_iff_of_lt {hosts : List HostInfo} (hshort : hosts.length < 2 ^ 32)
    {nodeId : NodeId} :
    ¬ BadNode hosts nodeId ↔ 1 ≤ nodeId.toNat ∧ nodeId.toNat ≤ hosts.length := by
  rw [not_badNode_iff, Nat.mod_eq_of_lt hshort]
  rfl

/-- **A getter returns on the ids of the table and on no other.** -/
theorem getHostField_ok_iff (hshort : ctx.hosts.length < 2 ^ 32) {nodeId : NodeId} :
    (∃ text, ctx.getHostField field bad nodeId = .ok text) ↔
      1 ≤ nodeId.toNat ∧ nodeId.toNat ≤ ctx.numHosts := by
  constructor
  · rintro ⟨text, htext⟩
    refine (not_badNode_iff_of_lt hshort).mp fun hbad => ?_
    rw [RpcContext.getHostField, if_pos hbad] at htext
    cases htext
  · intro hrange
    obtain ⟨host, -, hget⟩ :=
      ctx.getHostField_eq field bad ((not_badNode_iff_of_lt hshort).mpr hrange)
    exact ⟨field host, hget⟩

/-- **A getter reads the entry with the id it is given**, in a numbered table. -/
theorem getHostField_of_mem (hshort : ctx.hosts.length < 2 ^ 32) (hnum : Numbered ctx.hosts)
    {host : HostInfo} (hmem : host ∈ ctx.hosts) :
    ctx.getHostField field bad host.nodeId = .ok (field host) := by
  obtain ⟨i, hi⟩ := List.mem_iff_getElem?.mp hmem
  have hid : host.nodeId.toNat = i + 1 := hnum i host hi
  have hlt : i < ctx.hosts.length := (List.getElem?_eq_some_iff.mp hi).1
  have hgood : ¬ BadNode ctx.hosts host.nodeId :=
    (not_badNode_iff_of_lt hshort).mpr (by omega)
  obtain ⟨host', hentry, hget⟩ := ctx.getHostField_eq field bad hgood
  have hsame : host = host' := by
    rw [hid, Nat.add_sub_cancel, hi] at hentry
    exact Option.some.inj hentry
  rw [hget, hsame]

end Getters

/-! ## The table the first call builds -/

/-- The table is as long as the list of names. -/
theorem length_emplaceHosts {res : Resolver} :
    ∀ {names : List String} {nodeId : NodeId} {hosts : List HostInfo},
      emplaceHosts res names nodeId = .ok hosts → hosts.length = names.length
  | [], _, _, h => by cases h; rfl
  | name :: names, nodeId, hosts, h => by
      obtain ⟨ip, -, h⟩ := except_bind_eq_ok.mp h
      obtain ⟨rest, hrest, h⟩ := except_bind_eq_ok.mp h
      obtain rfl : ⟨name, ip, nodeId⟩ :: rest = hosts := Except.ok.inj h
      rw [List.length_cons, List.length_cons, length_emplaceHosts hrest]

/-- **The table numbers its hosts from one**, where a `u32` can count them. -/
theorem numbered_emplaceHosts {res : Resolver} {names : List String} {hosts : List HostInfo}
    (h : emplaceHosts res names 1 = .ok hosts) (hshort : names.length < 2 ^ 31) :
    Numbered hosts := by
  intro i host hi
  obtain ⟨name, hname, -, -, hid⟩ := (getElem?_emplaceHosts h i host).mp hi
  have hlt : i < names.length := (List.getElem?_eq_some_iff.mp hname).1
  have hsmall : (UInt32.ofNat i).toNat = i := UInt32.toNat_ofNat_of_lt' (by
    change i < 2 ^ 32
    omega)
  have hone : (1 : NodeId).toNat = 1 := rfl
  rw [hid, UInt32.toNat_add, hsmall, hone, Nat.mod_eq_of_lt (by omega), Nat.add_comm]

/-- So is a table of one entry. -/
theorem numbered_singleton (host : HostInfo) : Numbered [{ host with nodeId := 1 }] := by
  intro i other hother
  obtain ⟨rfl, rfl⟩ : i = 0 ∧ { host with nodeId := 1 } = other := by
    cases i <;> simp_all
  rfl

/-- **The entry the search stops at is the earliest local host of the list.** -/
theorem FirstLocal.earliestLocal {call : InitCall} {hosts : List HostInfo} {i : ℕ}
    {host : HostInfo} (hfirst : FirstLocal call.fab hosts i host)
    (h : emplaceHosts call.res call.config.rpc.hostNames 1 = .ok hosts) :
    EarliestLocal call host := by
  obtain ⟨name, hname, hip, hhost, -⟩ := (getElem?_emplaceHosts h i host).mp hfirst.entry
  obtain rfl : host.hostname = name := hhost
  refine ⟨i, hname, hip, hfirst.isLocal, fun j hj other addr hother haddr => ?_⟩
  have hentry : hosts[j]? = some ⟨other, addr, 1 + UInt32.ofNat j⟩ :=
    (getElem?_emplaceHosts h j _).mpr ⟨other, hother, haddr, rfl, rfl⟩
  exact hfirst.first j hj _ hentry

/-- A short, numbered table has its getters. -/
theorem hostTable_of_numbered {first : InitCall} {ctx : RpcContext}
    (hshort : ctx.hosts.length < 2 ^ 32) (hnum : Numbered ctx.hosts)
    (hrange : 1 ≤ ctx.nodeId.toNat ∧ ctx.nodeId.toNat ≤ ctx.numHosts)
    (hthis : ∃ host, ctx.hosts[ctx.nodeId.toNat - 1]? = some host ∧ EarliestLocal first host)
    (hlocal : first.config.localOnly = true → ctx.numHosts = 1 ∧ ctx.nodeId = 1) :
    HostTable first ctx where
  numbered := hnum
  inRange := hrange
  thisHost := hthis
  localOnly := hlocal
  ipAnswers _ := getHostField_ok_iff _ _ hshort
  nameAnswers _ := getHostField_ok_iff _ _ hshort
  fields _ hmem := ⟨getHostField_of_mem _ _ hshort hnum hmem,
    getHostField_of_mem _ _ hshort hnum hmem⟩

/-- **The first call builds a well-formed table.** -/
theorem serverInit_hostTable {first : InitCall} {ctx₀ ctx : RpcContext} (hfresh : ctx₀.hosts = [])
    (hshort : first.config.rpc.hostNames.length < 2 ^ 31)
    (h : ctx₀.serverInit first.res first.fab first.config = .ok ctx) : HostTable first ctx := by
  obtain ⟨hosts, i, host, hhosts, hfirst, hlt, hgood, rfl⟩ :=
    RpcContext.serverInit_of_fresh hfresh h
  have hlen : hosts.length = first.config.rpc.hostNames.length := length_emplaceHosts hhosts
  have hearliest : EarliestLocal first host := hfirst.earliestLocal hhosts
  have hid : (UInt32.ofInt (i + 1 : ℕ)).toNat = i + 1 := toNat_ofInt_nat (by omega)
  have hindex : i < hosts.length := (List.getElem?_eq_some_iff.mp hfirst.entry).1
  cases hl : first.config.localOnly with
  | false =>
    refine hostTable_of_numbered ?_ ?_ ?_ ⟨host, ?_, hearliest⟩ (by simp [hl])
    · simp only [Bool.false_eq_true, if_false]
      omega
    · simpa using numbered_emplaceHosts hhosts hshort
    · simp only [RpcContext.numHosts, Bool.false_eq_true, if_false, hid]
      omega
    · simpa only [Bool.false_eq_true, if_false, hid, Nat.add_sub_cancel] using hfirst.entry
  | true =>
    refine hostTable_of_numbered (by simp) (numbered_singleton host) ?_
      ⟨{ host with nodeId := 1 }, ?_, hearliest⟩ ?_
    · simp [RpcContext.numHosts]
    · simp
    · simp [RpcContext.numHosts]

/-! ## Every later call -/

/-- A context that has a table keeps it through `ServerInit`. -/
theorem serverInit_of_table {ctx ctx' : RpcContext} {call : InitCall} (hhosts : ctx.hosts ≠ [])
    (h : initStep ctx call = some ctx') : ctx' = ctx.takeConfig call.config := by
  rw [initStep_eq_some, RpcContext.serverInit, if_pos hhosts] at h
  exact (Except.ok.inj h).symm

/-- A well-formed table has an entry. -/
theorem HostTable.hosts_ne_nil {first : InitCall} {ctx : RpcContext} (h : HostTable first ctx) :
    ctx.hosts ≠ [] := by
  obtain ⟨host, hentry, -⟩ := h.thisHost
  rintro hnil
  rw [hnil, List.getElem?_nil] at hentry
  cases hentry

/-- **Taking a configuration over leaves the table as it is.** -/
theorem HostTable.takeConfig {first : InitCall} {ctx : RpcContext} (h : HostTable first ctx)
    (config : ServerConfig) : HostTable first (ctx.takeConfig config) where
  numbered := h.numbered
  inRange := h.inRange
  thisHost := h.thisHost
  localOnly := h.localOnly
  ipAnswers := h.ipAnswers
  nameAnswers := h.nameAnswers
  fields := h.fields

/-- **The host table stays well formed.**  From a fresh context, after each call of any sequence of
`ServerInit` calls that return, the table is the one the first of them built. -/
theorem hostTable_everyState (ctx₀ ctx : RpcContext) (hfresh : ctx₀.hosts = [])
    (first : InitCall) (rest : List InitCall)
    (hshort : first.config.rpc.hostNames.length < 2 ^ 31)
    (h : ctx₀.serverInit first.res first.fab first.config = .ok ctx) :
    EveryState initStep (HostTable first) ctx rest := by
  refine everyState_of_everyStep (C := fun _ _ => True) ?_ (serverInit_hostTable hfresh hshort h)
    (everyStep_of_forall fun _ _ _ => trivial)
  intro ctx call ctx' htable _ hstep
  rw [serverInit_of_table htable.hosts_ne_nil hstep]
  exact htable.takeConfig call.config

/-- The second machine of two, whose daemon is then given another host file, for this host only. -/
theorem hostTable_everyState_second :
    EveryState initStep
      (HostTable ⟨addressesOnly, oneInterface ⟨10, 0, 0, 2⟩,
        configOf ["10.0.0.1", "10.0.0.2"] "ofi+sockets"⟩)
      { twoHosts with nodeId := 2 }
      [⟨addressesOnly, oneInterface ⟨10, 0, 0, 2⟩,
        { configOf ["10.0.0.3"] "ofi+tcp" with localOnly := true }⟩] :=
  hostTable_everyState freshContext { twoHosts with nodeId := 2 } rfl _ _ (by decide) (by decide)

end ChiNettest
