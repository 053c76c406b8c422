import ChiNettest.Rpc.HostTable
import ChiNettest.Rpc.Resolve

/-!
# Rpc/Deployment — the machines of one host file are its nodes

`Rpc/Identity` says that machines which get past `ServerInit` agree on who is who.  Here: when they
get past it, and when every node of the table is one of them.

A machine gets past `ServerInit` exactly if every name of the host file has an address and one of
its lines is the machine's, and it takes the number of the first such line (`serverInit_ok_iff`).
So the machines number themselves `1, …, n` exactly if the file lists each of them once and nothing
else (`numbersMachines_iff`): a line too many is a node that nobody is.
-/

namespace ChiNettest

/-! ## One machine -/

/-- **Line `i` of the host file is the machine's**: its name has a local address. -/
def LocalAt (res : Resolver) (fab : Fabric) (names : List String) (i : ℕ) : Prop :=
  ∃ name addr, names[i]? = some name ∧ addressOf res name = some addr ∧ fab.IsLocal addr

/-- Line `i` is the first that is the machine's. -/
structure FirstLine (res : Resolver) (fab : Fabric) (names : List String) (i : ℕ) : Prop where
  isLocal : LocalAt res fab names i
  first : ∀ j < i, ¬ LocalAt res fab names j

section Machine

variable {res : Resolver} {fab : Fabric} {names : List String} {hosts : List HostInfo} {i : ℕ}

/-- A line of the file is the machine's if the entry of the table is. -/
theorem localAt_iff (h : emplaceHosts res names 1 = .ok hosts) :
    LocalAt res fab names i ↔ ∃ host, hosts[i]? = some host ∧ fab.IsLocal host.ipAddr := by
  constructor
  · rintro ⟨name, addr, hname, haddr, hlocal⟩
    exact ⟨⟨name, addr, 1 + UInt32.ofNat i⟩, (getElem?_emplaceHosts h i _).mpr
      ⟨name, hname, getIpAddress_eq_ok_iff.mpr haddr, rfl, rfl⟩, hlocal⟩
  · rintro ⟨host, hhost, hlocal⟩
    obtain ⟨name, hname, hip, -, -⟩ := (getElem?_emplaceHosts h i host).mp hhost
    exact ⟨name, host.ipAddr, hname, getIpAddress_eq_ok_iff.mp hip, hlocal⟩

theorem firstLine_iff (h : emplaceHosts res names 1 = .ok hosts) :
    FirstLine res fab names i ↔ ∃ host, FirstLocal fab hosts i host := by
  constructor
  · rintro ⟨hlocal, hfirst⟩
    obtain ⟨host, hentry, haddr⟩ := (localAt_iff h).mp hlocal
    exact ⟨host, hentry, haddr, fun j hj other hother hlocal' =>
      hfirst j hj ((localAt_iff h).mpr ⟨other, hother, hlocal'⟩)⟩
  · rintro ⟨host, hentry, haddr, hfirst⟩
    refine ⟨(localAt_iff h).mpr ⟨host, hentry, haddr⟩, fun j hj hlocal => ?_⟩
    obtain ⟨other, hother, hlocal'⟩ := (localAt_iff h).mp hlocal
    exact hfirst j hj other hother hlocal'

/-- Where one address is local, every address is local or not: the search does not end early. -/
theorem isAddressLocal_of_local {addr other : String} (hlocal : fab.IsLocal addr)
    (hother : ¬ fab.IsLocal other) : isAddressLocal fab other = .ok false := by
  rw [Fabric.IsLocal, isAddressLocal] at hlocal hother
  rw [isAddressLocal]
  cases hinit : fab.fiAllocinfo with
  | false => simp [hinit] at hlocal
  | true =>
    cases hinfo : fab.fiGetinfo with
    | error ret => simp [hinit, hinfo] at hlocal
    | ok info => simpa [hinit, hinfo] using hother

/-- **The search reaches the first local entry**, if an `int` can count to it. -/
theorem findThisHostFrom_of_first {host : HostInfo} :
    ∀ {hosts : List HostInfo} {i : ℕ} {nodeId : ℤ},
    FirstLocal fab hosts i host → nodeId + i < 2 ^ 31 →
      findThisHostFrom fab hosts nodeId = .ok (nodeId + i)
  | [], i, _, h, _ => by cases h.entry
  | first :: hosts, 0, nodeId, h, _ => by
      obtain rfl : first = host := Option.some.inj h.entry
      have hlocal : isAddressLocal fab first.ipAddr = .ok true := h.isLocal
      rw [findThisHostFrom, hlocal, except_ok_bind]
      exact congrArg Except.ok (Int.add_zero nodeId).symm
  | first :: hosts, i + 1, nodeId, h, hlt => by
      have hother : isAddressLocal fab first.ipAddr = .ok false :=
        isAddressLocal_of_local h.isLocal (h.first 0 (Nat.succ_pos i) first rfl)
      have hnext : incInt nodeId = .ok (nodeId + 1) := by
        rw [incInt, if_neg (by omega)]
      have htail : FirstLocal fab hosts i host :=
        ⟨h.entry, h.isLocal, fun j hj other hj' => h.first (j + 1) (by omega) other hj'⟩
      have hrest : findThisHostFrom fab hosts (nodeId + 1) = .ok (nodeId + 1 + i) :=
        findThisHostFrom_of_first htail (by omega)
      rw [findThisHostFrom, hother, except_ok_bind, hnext]
      refine Eq.trans hrest (congrArg Except.ok ?_)
      push_cast
      ring

/-- **Where the first local entry is, the search ends with a number `ServerInit` takes.** -/
theorem findThisHost_of_first {host : HostInfo} (hfirst : FirstLocal fab hosts i host)
    (hshort : hosts.length < 2 ^ 31) :
    findThisHost fab hosts = .ok ((i + 1 : ℕ) : ℤ) ∧
      ¬ BadNode hosts (UInt32.ofInt (i + 1 : ℕ)) := by
  have hi : i < hosts.length := (List.getElem?_eq_some_iff.mp hfirst.entry).1
  have hid : (UInt32.ofInt (i + 1 : ℕ)).toNat = i + 1 := toNat_ofInt_nat (by omega)
  refine ⟨?_, (not_badNode_iff_of_lt (by omega)).mpr (by omega)⟩
  rw [findThisHost, findThisHostFrom_of_first hfirst (by omega), Nat.cast_add, Nat.cast_one,
    add_comm]

/-- The names of a file all have an address exactly if the loop of `ServerInit` completes. -/
theorem emplaceHosts_ok_iff :
    (∃ hosts, emplaceHosts res names 1 = .ok hosts) ↔
      ∀ name ∈ names, (addressOf res name).isSome := by
  constructor
  · rintro ⟨hosts, hhosts⟩ name hname
    obtain ⟨k, hk⟩ := List.mem_iff_getElem?.mp hname
    have hlt : k < hosts.length := by
      rw [length_emplaceHosts hhosts]
      exact (List.getElem?_eq_some_iff.mp hk).1
    obtain ⟨other, hother, hip, -, -⟩ :=
      (getElem?_emplaceHosts hhosts k _).mp (List.getElem?_eq_getElem hlt)
    obtain rfl := Option.some.inj (hother.symm.trans hk)
    exact Option.isSome_iff_exists.mpr ⟨_, getIpAddress_eq_ok_iff.mp hip⟩
  · intro h
    have hmissing : firstMissing res names = none :=
      List.find?_eq_none.mpr fun name hname => by
        simpa [Option.isNone_iff_eq_none, ← Option.isSome_iff_ne_none] using h name hname
    obtain ⟨hosts, hhosts, -, -⟩ := emplaceHosts_of_all 1 hmissing
    exact ⟨hosts, hhosts⟩

end Machine

/-- **When a machine gets past `ServerInit`, and who it is then**: every name of the host file has
an address, and the first line that is the machine's is numbered by its node id. -/
theorem serverInit_ok_iff {res : Resolver} {fab : Fabric} {config : ServerConfig}
    {ctx₀ : RpcContext} (hfresh : ctx₀.hosts = []) (hall : config.localOnly = false)
    (hshort : config.rpc.hostNames.length < 2 ^ 31) (i : ℕ) :
    (∃ ctx, ctx₀.serverInit res fab config = .ok ctx ∧ ctx.nodeId.toNat = i + 1) ↔
      (∀ name ∈ config.rpc.hostNames, (addressOf res name).isSome) ∧
        FirstLine res fab config.rpc.hostNames i := by
  constructor
  · rintro ⟨ctx, hctx, hid⟩
    obtain ⟨hosts, k, host, hhosts, hfirst, hlt, -, rfl⟩ :=
      RpcContext.serverInit_of_fresh hfresh hctx
    simp only [hall, Bool.false_eq_true, if_false] at hid
    rw [toNat_ofInt_nat (by omega)] at hid
    obtain rfl : k = i := by omega
    exact ⟨emplaceHosts_ok_iff.mp ⟨hosts, hhosts⟩, (firstLine_iff hhosts).mpr ⟨host, hfirst⟩⟩
  · rintro ⟨hnames, hline⟩
    obtain ⟨hosts, hhosts⟩ := emplaceHosts_ok_iff.mpr hnames
    obtain ⟨host, hfirst⟩ := (firstLine_iff hhosts).mp hline
    have hlen := length_emplaceHosts hhosts
    have hi : i < hosts.length := (List.getElem?_eq_some_iff.mp hfirst.entry).1
    have hid : (UInt32.ofInt (i + 1 : ℕ)).toNat = i + 1 := toNat_ofInt_nat (by omega)
    obtain ⟨hfound, hgood⟩ := findThisHost_of_first hfirst (by omega)
    refine ⟨{ ctx₀.takeConfig config with hosts := hosts, nodeId := UInt32.ofInt (i + 1 : ℕ) },
      ?_, hid⟩
    rw [RpcContext.serverInit, if_neg (by simp [hfresh]), hhosts, except_ok_bind, hfound,
      except_ok_bind, if_neg hgood, hall]
    rfl

/-- A machine that gets past `ServerInit` has such a line. -/
theorem exists_firstLine {res : Resolver} {fab : Fabric} {config : ServerConfig}
    {ctx₀ ctx : RpcContext} (hfresh : ctx₀.hosts = []) (hall : config.localOnly = false)
    (hshort : config.rpc.hostNames.length < 2 ^ 31)
    (h : ctx₀.serverInit res fab config = .ok ctx) :
    ∃ i, ctx.nodeId.toNat = i + 1 ∧ FirstLine res fab config.rpc.hostNames i := by
  have hpos : 0 < ctx.nodeId.toNat :=
    (not_badNode_iff.mp (serverInit_own_entry hfresh hall h).1).1
  obtain ⟨i, hi⟩ := Nat.exists_eq_succ_of_ne_zero (Nat.pos_iff_ne_zero.mp hpos)
  exact ⟨i, hi, ((serverInit_ok_iff hfresh hall hshort i).mp ⟨ctx, h, hi⟩).2⟩

/-! ## All machines of a host file -/

section Machines

variable {M : Type*} (res : Resolver) (fab : M → Fabric) (names : List String)
  (config : M → ServerConfig) (ctx₀ : M → RpcContext)

/-- **Machines sharing a host file and a name service**, no resolved address being local to two of
them. -/
structure SharedFile : Prop where
  hostNames : ∀ m, (config m).rpc.hostNames = names
  allHosts : ∀ m, (config m).localOnly = false
  fresh : ∀ m, (ctx₀ m).hosts = []
  short : names.length < 2 ^ 31
  disjoint : ∀ name ∈ names, ∀ addr, addressOf res name = some addr →
    ∀ m m', (fab m).IsLocal addr → (fab m').IsLocal addr → m = m'

/-- **The file lists each machine once, and nothing else.** -/
structure ListsOnce : Prop where
  everyLine : ∀ name ∈ names, ∃ addr m, addressOf res name = some addr ∧ (fab m).IsLocal addr
  everyMachine : ∀ m, ∃! i, LocalAt res (fab m) names i

/-- **The machines number themselves `1, …, n`**: all get past `ServerInit`, and each node of the
table is one of them. -/
def NumbersMachines : Prop :=
  ∃ ctx : M → RpcContext, (∀ m, (ctx₀ m).serverInit res (fab m) (config m) = .ok (ctx m)) ∧
    ∀ k, 1 ≤ k → k ≤ names.length → ∃! m, (ctx m).nodeId.toNat = k

variable {res fab names config ctx₀}

namespace SharedFile

theorem short_config (h : SharedFile res fab names config ctx₀) (m : M) :
    (config m).rpc.hostNames.length < 2 ^ 31 := by
  rw [h.hostNames m]
  exact h.short

theorem init_iff (h : SharedFile res fab names config ctx₀) (m : M) (i : ℕ) :
    (∃ ctx, (ctx₀ m).serverInit res (fab m) (config m) = .ok ctx ∧ ctx.nodeId.toNat = i + 1) ↔
      (∀ name ∈ names, (addressOf res name).isSome) ∧ FirstLine res (fab m) names i := by
  rw [serverInit_ok_iff (h.fresh m) (h.allHosts m) (h.short_config m) i, h.hostNames m]

/-- A line is one machine's at most. -/
theorem owner_unique (h : SharedFile res fab names config ctx₀) {m m' : M} {i : ℕ}
    (hm : LocalAt res (fab m) names i) (hm' : LocalAt res (fab m') names i) : m = m' := by
  obtain ⟨name, addr, hname, haddr, hlocal⟩ := hm
  obtain ⟨name', addr', hname', haddr', hlocal'⟩ := hm'
  obtain rfl := Option.some.inj (hname.symm.trans hname')
  obtain rfl := Option.some.inj (haddr.symm.trans haddr')
  exact h.disjoint name (List.mem_of_getElem? hname) addr haddr m m' hlocal hlocal'

/-- **Where the machines number themselves, the file lists each once.** -/
theorem listsOnce (h : SharedFile res fab names config ctx₀)
    (hnumbers : NumbersMachines res fab names config ctx₀) : ListsOnce res fab names := by
  obtain ⟨ctx, hctx, hcover⟩ := hnumbers
  have hline : ∀ {m i}, (ctx m).nodeId.toNat = i + 1 → LocalAt res (fab m) names i :=
    fun {m i} hid => ((h.init_iff m i).mp ⟨ctx m, hctx m, hid⟩).2.isLocal
  have howner : ∀ {i name}, names[i]? = some name → ∃ m, (ctx m).nodeId.toNat = i + 1 :=
    fun {i _} hi => (hcover (i + 1) (Nat.succ_pos i) (List.getElem?_eq_some_iff.mp hi).1).exists
  refine ⟨fun name hname => ?_, fun m => ?_⟩
  · obtain ⟨i, hi⟩ := List.mem_iff_getElem?.mp hname
    obtain ⟨m, hm⟩ := howner hi
    obtain ⟨name', addr, hname', haddr, hlocal⟩ := hline hm
    obtain rfl := Option.some.inj (hi.symm.trans hname')
    exact ⟨addr, m, haddr, hlocal⟩
  · obtain ⟨i, hi, -⟩ := exists_firstLine (h.fresh m) (h.allHosts m) (h.short_config m) (hctx m)
    refine ⟨i, hline hi, fun j hj => ?_⟩
    obtain ⟨name, -, hname, -, -⟩ := id hj
    obtain ⟨m', hm'⟩ := howner hname
    obtain rfl := h.owner_unique (hline hm') hj
    exact Nat.succ.inj (hm'.symm.trans hi)

/-- **Where the file lists each machine once, they number themselves.** -/
theorem numbersMachines (h : SharedFile res fab names config ctx₀)
    (hlists : ListsOnce res fab names) : NumbersMachines res fab names config ctx₀ := by
  have hresolve : ∀ name ∈ names, (addressOf res name).isSome := fun name hname => by
    obtain ⟨addr, m, haddr, -⟩ := hlists.everyLine name hname
    exact Option.isSome_iff_exists.mpr ⟨addr, haddr⟩
  have hstarts : ∀ m, ∃ ctx, (ctx₀ m).serverInit res (fab m) (config m) = .ok ctx ∧
      ∀ i, LocalAt res (fab m) names i ↔ ctx.nodeId.toNat = i + 1 := by
    intro m
    obtain ⟨i, hi, honly⟩ := hlists.everyMachine m
    have hfirst : FirstLine res (fab m) names i :=
      ⟨hi, fun j hj hlocal => absurd (honly j hlocal) (Nat.ne_of_lt hj)⟩
    obtain ⟨ctx, hctx, hid⟩ := (h.init_iff m i).mpr ⟨hresolve, hfirst⟩
    refine ⟨ctx, hctx, fun j => ⟨fun hj => honly j hj ▸ hid, fun hj => ?_⟩⟩
    obtain rfl : i = j := Nat.succ.inj (hid.symm.trans hj)
    exact hi
  choose ctx hctx hid using hstarts
  refine ⟨ctx, hctx, fun k hk hkn => ?_⟩
  obtain ⟨i, rfl⟩ := Nat.exists_eq_succ_of_ne_zero (Nat.pos_iff_ne_zero.mp hk)
  have hname : names[i]? = some names[i] := List.getElem?_eq_getElem hkn
  obtain ⟨addr, m, haddr, hlocal⟩ := hlists.everyLine _ (List.mem_of_getElem? hname)
  have hm : LocalAt res (fab m) names i := ⟨_, addr, hname, haddr, hlocal⟩
  exact ⟨m, (hid m i).mp hm, fun m' hm' => h.owner_unique ((hid m' i).mpr hm') hm⟩

end SharedFile

end Machines

/-- **The machines of a deployment number themselves `1, …, n` exactly if the host file lists each
of them once, and nothing else.**  A machine the file leaves out does not start, and of one it lists
twice the second number is nobody's. -/
theorem numbersMachines_iff {M : Type*} {res : Resolver} {fab : M → Fabric} {names : List String}
    {config : M → ServerConfig} {ctx₀ : M → RpcContext}
    (h : SharedFile res fab names config ctx₀) :
    NumbersMachines res fab names config ctx₀ ↔ ListsOnce res fab names :=
  ⟨h.listsOnce, h.numbersMachines⟩

theorem numbersMachines_iff_twoMachines :
    NumbersMachines addressesOnly twoMachines ["10.0.0.2", "10.0.0.1"]
        (fun _ => configOf ["10.0.0.2", "10.0.0.1"] "ofi+sockets") (fun _ => freshContext) ↔
      ListsOnce addressesOnly twoMachines ["10.0.0.2", "10.0.0.1"] := by
  have haddr : ∀ name ∈ ["10.0.0.2", "10.0.0.1"], addressOf addressesOnly name = some name := by
    decide
  have hone : ∀ name ∈ ["10.0.0.2", "10.0.0.1"], ∀ m m' : Fin 2,
      (twoMachines m).IsLocal name → (twoMachines m').IsLocal name → m = m' := by decide
  refine numbersMachines_iff ⟨fun _ => rfl, fun _ => rfl, fun _ => rfl, by decide, ?_⟩
  intro name hname addr hresolved
  obtain rfl := Option.some.inj ((haddr name hname).symm.trans hresolved)
  exact hone name hname

end ChiNettest
