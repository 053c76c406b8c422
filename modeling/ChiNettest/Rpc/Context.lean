import ChiNettest.Machinery.Prog
import Mathlib.Data.Int.Notation
import Mathlib.Tactic.Ring
import Mathlib.Tactic.NormNum

/-!
# Rpc/Context — the host table of a node, and how `ServerInit` builds it

`RpcContext` is the class of `rpc.h`.  `serverInit` resolves every name of the host file
(`getIpAddress`), searches the table for an address of this machine (`findThisHost`) and, in
local-only mode, cuts the table down to that entry.

What the operating system answers is a parameter: `Resolver` is `gethostbyname_r`, `Fabric` is
`fi_getinfo` on one machine.  A call that does not return ends in an `Exn` — a C++ exception, a
`HELOG(kFatal)`, which ends the process, or undefined behaviour.
-/

namespace ChiNettest

/-- How a call ends when it does not return. -/
inductive Exn
  /-- `tl::margo_exception` -/
  | margo
  /-- `std::runtime_error` -/
  | runtimeError (what : String)
  /-- `std::length_error`, from `std::vector::reserve` -/
  | lengthError
  /-- `HELOG(kFatal, msg)` ends the process. -/
  | fatal (msg : String)
  /-- a null pointer is dereferenced -/
  | nullAccess
  /-- a `std::vector` is indexed past its end -/
  | outOfRange
  /-- a signed `int` leaves its range -/
  | signedOverflow
  deriving DecidableEq, Repr

/-- `++i` on an `int`. -/
def incInt (i : ℤ) : Except Exn ℤ :=
  if i = 2 ^ 31 - 1 then .error .signedOverflow else .ok (i + 1)

/-- The ID of a node. -/
abbrev NodeId := UInt32

/-! ## Configuration -/

/-- RPC information defined in server config. -/
structure RpcInfo where
  /-- the parsed host names, one per line of the host file -/
  hostNames : List String
  protocol : String
  domain : String
  port : ℤ
  numThreads : ℤ
  deriving DecidableEq, Repr

/-- System configuration. -/
structure ServerConfig where
  rpc : RpcInfo
  ioSize : UInt64
  mdSize : UInt64
  rep : UInt64
  sleep : UInt64
  test : String
  localOnly : Bool
  deriving DecidableEq, Repr

/-! ## What the operating system answers -/

/-- An IPv4 address, in the order of its bytes on the wire. -/
structure InAddr where
  a : UInt8
  b : UInt8
  c : UInt8
  d : UInt8
  deriving DecidableEq, Repr

/-- `inet_ntop(AF_INET, …)`: four decimal numbers separated by dots. -/
def inetNtop (addr : InAddr) : String :=
  toString addr.a.toNat ++ "." ++ toString addr.b.toNat ++ "." ++ toString addr.c.toNat ++ "." ++
    toString addr.d.toNat

/-- What `gethostbyname_r` leaves behind for one name. -/
inductive HostLookup
  /-- a non-zero return code -/
  | failed
  /-- zero, with `*result` null and the `hostent` as the caller zeroed it -/
  | unknown
  /-- zero, with a null-terminated address list -/
  | found (addrs : List InAddr)
  deriving DecidableEq, Repr

/-- The name service. -/
structure Resolver where
  gethostbyname : String → HostLookup
  /-- `hstrerror(h_errno)` after the lookup of a name -/
  hstrerror : String → String

/-- `fi_getinfo` on one machine. -/
structure Fabric where
  /-- whether `fi_allocinfo` succeeds -/
  fiAllocinfo : Bool
  /-- the return code of a failed `fi_getinfo`, or the `src_addr` of each `fi_info` it lists -/
  fiGetinfo : Except ℤ (List (Option InAddr))
  fiStrerror : ℤ → String

/-! ## Resolving a name -/

/-- The test `_GetIpAddress` makes for an IP address: three dots, otherwise digits. -/
def looksLikeIp (hostName : String) : Bool :=
  hostName.toList.count '.' == 3 && hostName.toList.all fun c => c == '.' || c.isDigit

/-- `RpcContext::_GetIpAddress`.  `inet_ntop` on an `AF_INET` address and a buffer of
`INET_ADDRSTRLEN` bytes has no failing case, so its fatal branch is not reached. -/
def getIpAddress (res : Resolver) (hostName : String) : Except Exn String :=
  if looksLikeIp hostName then .ok hostName
  else match res.gethostbyname hostName with
    | .failed => .error (.fatal (res.hstrerror hostName))
    -- `hostname_info.h_addr_list` is null, and `addr_list[0]` reads through it
    | .unknown => .error .nullAccess
    | .found [] => .error (.fatal (res.hstrerror hostName))
    | .found (addr :: _) => .ok (inetNtop addr)

/-- `RpcContext::_IsAddressLocal`. -/
def isAddressLocal (fab : Fabric) (addr : String) : Except Exn Bool :=
  if fab.fiAllocinfo then
    match fab.fiGetinfo with
    | .error ret => .error (.fatal ("fi_getinfo failed: " ++ fab.fiStrerror (-ret)))
    | .ok info => .ok (info.any fun cur => cur.any fun sin => addr == inetNtop sin)
  else .error (.fatal "fi_allocinfo failed")

/-! ## The context -/

/-- Uniquely identify a host machine. -/
structure HostInfo where
  hostname : String
  ipAddr : String
  nodeId : NodeId
  deriving DecidableEq, Repr

/-- A structure to represent RPC context. -/
structure RpcContext where
  port : ℤ
  protocol : String
  domain : String
  hosts : List HostInfo
  nodeId : NodeId
  numThreads : UInt32
  /-- what `config_` points to -/
  config : ServerConfig
  deriving DecidableEq, Repr

/-- The loop of `ServerInit` that fills `hosts_`, numbering from `nodeId`. -/
def emplaceHosts (res : Resolver) : List String → NodeId → Except Exn (List HostInfo)
  | [], _ => .ok []
  | name :: names, nodeId => do
    let ipAddr ← getIpAddress res name
    let hosts ← emplaceHosts res names (nodeId + 1)
    return ⟨name, ipAddr, nodeId⟩ :: hosts

/-- The loop of `_FindThisHost`, its `int node_id` at `nodeId`. -/
def findThisHostFrom (fab : Fabric) : List HostInfo → ℤ → Except Exn ℤ
  | [], _ => .error (.fatal "Could not identify this host")
  | host :: hosts, nodeId => do
    if ← isAddressLocal fab host.ipAddr then
      return nodeId
    findThisHostFrom fab hosts (← incInt nodeId)

/-- `RpcContext::_FindThisHost`: the node ID of this machine according to the host file. -/
def findThisHost (fab : Fabric) (hosts : List HostInfo) : Except Exn ℤ :=
  findThisHostFrom fab hosts 1

/-- The range test `ServerInit` makes on the node ID it found, and both getters on their argument.
Compared with a `u32`, the `(i32)` size of one of them is the `(u32)` size of the others. -/
def BadNode (hosts : List HostInfo) (nodeId : NodeId) : Prop :=
  nodeId = 0 ∨ UInt32.ofNat hosts.length < nodeId

instance (hosts : List HostInfo) (nodeId : NodeId) : Decidable (BadNode hosts nodeId) :=
  inferInstanceAs (Decidable (_ ∨ _))

namespace RpcContext

/-- `RpcContext::NumHosts`. -/
def numHosts (ctx : RpcContext) : ℕ := ctx.hosts.length

/-- The assignments `ServerInit` starts with. -/
def takeConfig (ctx : RpcContext) (config : ServerConfig) : RpcContext :=
  { ctx with
    config := config
    port := config.rpc.port
    protocol := config.rpc.protocol
    domain := config.rpc.domain
    numThreads := UInt32.ofInt config.rpc.numThreads }

/-- `RpcContext::ServerInit`.  The configuration is taken over on every call, the host table built
on the first only. -/
def serverInit (res : Resolver) (fab : Fabric) (config : ServerConfig) (ctx : RpcContext) :
    Except Exn RpcContext :=
  if ctx.hosts ≠ [] then .ok (ctx.takeConfig config)
  else do
    let hosts ← emplaceHosts res config.rpc.hostNames 1
    let thisId ← findThisHost fab hosts
    -- `node_id_` is a `u32`, `_FindThisHost` returns an `int`
    let nodeId := UInt32.ofInt thisId
    if BadNode hosts nodeId then .error (.fatal "Couldn't identify this host.")
    else if config.localOnly then
      match hosts[(nodeId - 1).toNat]? with
      | some thisHost =>
        .ok { ctx.takeConfig config with hosts := [{ thisHost with nodeId := 1 }], nodeId := 1 }
      | none => .error .outOfRange
    else .ok { ctx.takeConfig config with hosts := hosts, nodeId := nodeId }

/-- The text both getters report an id out of range with. -/
def badNodeText (ctx : RpcContext) (nodeId : NodeId) : String :=
  "Attempted to get from node " ++ toString nodeId.toNat ++ ", which is out of the range 1-" ++
    toString ctx.hosts.length

/-- A field of the entry of a node, read after the range test. -/
def getHostField (ctx : RpcContext) (field : HostInfo → String) (bad : String → Exn)
    (nodeId : NodeId) : Except Exn String :=
  if BadNode ctx.hosts nodeId then .error (bad (ctx.badNodeText nodeId))
  else match ctx.hosts[(nodeId - 1).toNat]? with
    | some host => .ok (field host)
    | none => .error .outOfRange

/-- `RpcContext::GetHostNameFromNodeId`. -/
def getHostNameFromNodeId (ctx : RpcContext) (nodeId : NodeId) : Except Exn String :=
  ctx.getHostField HostInfo.hostname .fatal nodeId

/-- `RpcContext::GetIpAddressFromNodeId`. -/
def getIpAddressFromNodeId (ctx : RpcContext) (nodeId : NodeId) : Except Exn String :=
  ctx.getHostField HostInfo.ipAddr .runtimeError nodeId

end RpcContext

/-! ## What the search and the table hold -/

/-- **`addr` is an address of the machine**, as `_IsAddressLocal` answers on it. -/
def Fabric.IsLocal (fab : Fabric) (addr : String) : Prop := isAddressLocal fab addr = .ok true

instance (fab : Fabric) (addr : String) : Decidable (fab.IsLocal addr) :=
  inferInstanceAs (Decidable (_ = _))

/-- **`host` is the first entry of the table with an address of the machine**, at index `i`. -/
structure FirstLocal (fab : Fabric) (hosts : List HostInfo) (i : ℕ) (host : HostInfo) : Prop where
  entry : hosts[i]? = some host
  isLocal : fab.IsLocal host.ipAddr
  first : ∀ j < i, ∀ other, hosts[j]? = some other → ¬ fab.IsLocal other.ipAddr

theorem incInt_eq_ok {i j : ℤ} (h : incInt i = .ok j) : j = i + 1 ∧ i ≠ 2 ^ 31 - 1 := by
  obtain ⟨hne, h⟩ := except_ite_error_eq_ok.mp h
  exact ⟨(Except.ok.inj h).symm, hne⟩

/-- **The table holds the names in order**, each with the address it resolved to and numbered on
from `nodeId`. -/
theorem getElem?_emplaceHosts {res : Resolver} :
    ∀ {names : List String} {nodeId : NodeId} {hosts : List HostInfo},
      emplaceHosts res names nodeId = .ok hosts → ∀ (i : ℕ) (host : HostInfo),
        hosts[i]? = some host ↔ ∃ name, names[i]? = some name ∧
          getIpAddress res name = .ok host.ipAddr ∧ host.hostname = name ∧
          host.nodeId = nodeId + UInt32.ofNat i
  | [], _, _, h, i, host => by cases h; simp
  | name :: names, nodeId, hosts, h, i, host => by
      obtain ⟨ip, hip, h⟩ := except_bind_eq_ok.mp h
      obtain ⟨rest, hrest, h⟩ := except_bind_eq_ok.mp h
      obtain rfl : ⟨name, ip, nodeId⟩ :: rest = hosts := Except.ok.inj h
      cases i with
      | zero =>
        obtain ⟨hostname, ipAddr, id⟩ := host
        simp only [List.getElem?_cons_zero, Option.some.injEq, HostInfo.mk.injEq,
          exists_eq_left', hip, Except.ok.injEq]
        constructor
        · rintro ⟨rfl, rfl, rfl⟩
          exact ⟨rfl, rfl, (UInt32.add_zero _).symm⟩
        · rintro ⟨rfl, rfl, rfl⟩
          exact ⟨rfl, rfl, (UInt32.add_zero _).symm⟩
      | succ i =>
        have hshift : nodeId + 1 + UInt32.ofNat i = nodeId + UInt32.ofNat (i + 1) := by
          rw [UInt32.add_assoc, UInt32.ofNat_add, UInt32.add_comm 1]; rfl
        rw [List.getElem?_cons_succ, List.getElem?_cons_succ, ← hshift]
        exact getElem?_emplaceHosts hrest i host

/-- **The search stops at the first local entry**, its counter advanced by that entry's index. -/
theorem firstLocal_of_findThisHostFrom {fab : Fabric} :
    ∀ {hosts : List HostInfo} {nodeId r : ℤ}, nodeId < 2 ^ 31 →
      findThisHostFrom fab hosts nodeId = .ok r →
        ∃ i host, FirstLocal fab hosts i host ∧ r = nodeId + i ∧ r < 2 ^ 31
  | [], _, _, _, h => by cases h
  | host :: hosts, nodeId, r, hlt, h => by
      obtain ⟨found, hfound, h⟩ := except_bind_eq_ok.mp h
      cases found with
      | true =>
        obtain rfl : nodeId = r := Except.ok.inj h
        exact ⟨0, host, ⟨rfl, hfound, fun j hj => absurd hj (Nat.not_lt_zero j)⟩, by simp, hlt⟩
      | false =>
        obtain ⟨next, hnext, h⟩ := except_bind_eq_ok.mp h
        obtain ⟨rfl, hne⟩ := incInt_eq_ok hnext
        obtain ⟨i, this, hthis, rfl, hr⟩ := firstLocal_of_findThisHostFrom (by omega) h
        refine ⟨i + 1, this, ⟨hthis.entry, hthis.isLocal, ?_⟩, by push_cast; omega, hr⟩
        rintro (_ | j) hj other hother
        · obtain rfl : host = other := by simpa using hother
          intro hlocal
          exact Bool.noConfusion (Except.ok.inj (hfound.symm.trans hlocal))
        · exact hthis.first j (by omega) other hother

/-- An `int` that fits the `u32` it is assigned to. -/
theorem toNat_ofInt_nat {n : ℕ} (h : n < 2 ^ 32) : (UInt32.ofInt n).toNat = n := by
  have hmod : ((n : ℤ) % 2 ^ 32).toNat = n := by omega
  rw [UInt32.ofInt, hmod, UInt32.toNat_ofNat_of_lt' h]

/-- A node ID in range reads the entry below it. -/
theorem not_badNode_iff {hosts : List HostInfo} {nodeId : NodeId} :
    ¬ BadNode hosts nodeId ↔
      0 < nodeId.toNat ∧ nodeId.toNat ≤ hosts.length % 2 ^ 32 := by
  have hzero : nodeId = 0 ↔ nodeId.toNat = 0 := by
    rw [← UInt32.toNat_inj]; rfl
  have hsize : (UInt32.ofNat hosts.length).toNat = hosts.length % 2 ^ 32 := rfl
  rw [BadNode, not_or, hzero, UInt32.not_lt, UInt32.le_iff_toNat_le, hsize, Nat.pos_iff_ne_zero]

theorem toNat_sub_one_lt {hosts : List HostInfo} {nodeId : NodeId}
    (h : ¬ BadNode hosts nodeId) :
    (nodeId - 1).toNat = nodeId.toNat - 1 ∧ nodeId.toNat - 1 < hosts.length := by
  obtain ⟨hpos, hle⟩ := not_badNode_iff.mp h
  have hone : (1 : NodeId) ≤ nodeId := UInt32.le_iff_toNat_le.mpr hpos
  have hmod : hosts.length % 2 ^ 32 ≤ hosts.length := Nat.mod_le _ _
  exact ⟨UInt32.toNat_sub_of_le _ _ hone, by omega⟩

namespace RpcContext

/-- **Both getters read the entry of the node, or report the id.** -/
theorem getHostField_eq (ctx : RpcContext) (field : HostInfo → String) (bad : String → Exn)
    {nodeId : NodeId} (h : ¬ BadNode ctx.hosts nodeId) :
    ∃ host, ctx.hosts[nodeId.toNat - 1]? = some host ∧
      ctx.getHostField field bad nodeId = .ok (field host) := by
  obtain ⟨hsub, hlt⟩ := toNat_sub_one_lt h
  have hentry : ctx.hosts[nodeId.toNat - 1]? = some (ctx.hosts[nodeId.toNat - 1]) :=
    List.getElem?_eq_getElem hlt
  refine ⟨ctx.hosts[nodeId.toNat - 1], hentry, ?_⟩
  rw [getHostField, if_neg h, hsub, hentry]

/-- **What a `ServerInit` that returns has done to a fresh context.**  The search found the first
entry with a local address, at index `i`, and `node_id_` counts it from one. -/
theorem serverInit_of_fresh {res : Resolver} {fab : Fabric} {config : ServerConfig}
    {ctx ctx' : RpcContext} (hfresh : ctx.hosts = [])
    (h : ctx.serverInit res fab config = .ok ctx') :
    ∃ hosts i host, emplaceHosts res config.rpc.hostNames 1 = .ok hosts ∧
      FirstLocal fab hosts i host ∧ i + 1 < 2 ^ 31 ∧
      ¬ BadNode hosts (UInt32.ofInt (i + 1 : ℕ)) ∧
      ctx' = { ctx.takeConfig config with
        hosts := if config.localOnly then [{ host with nodeId := 1 }] else hosts
        nodeId := if config.localOnly then 1 else UInt32.ofInt (i + 1 : ℕ) } := by
  rw [serverInit, if_neg (by simp [hfresh])] at h
  obtain ⟨hosts, hhosts, h⟩ := except_bind_eq_ok.mp h
  obtain ⟨thisId, hid, h⟩ := except_bind_eq_ok.mp h
  obtain ⟨i, host, hfirst, rfl, hlt⟩ := firstLocal_of_findThisHostFrom (by norm_num) hid
  have hcast : (1 + i : ℤ) = ((i + 1 : ℕ) : ℤ) := by push_cast; ring
  rw [hcast] at h hlt
  obtain ⟨hgood, h⟩ := except_ite_error_eq_ok.mp h
  refine ⟨hosts, i, host, hhosts, hfirst, by omega, hgood, ?_⟩
  have hindex : (UInt32.ofInt (i + 1 : ℕ) - 1).toNat = i := by
    rw [(toNat_sub_one_lt hgood).1, toNat_ofInt_nat (by omega), Nat.add_sub_cancel]
  rw [hindex, hfirst.entry] at h
  cases hl : config.localOnly <;> simp only [hl] at h ⊢ <;> exact (Except.ok.inj h).symm

end RpcContext

end ChiNettest
