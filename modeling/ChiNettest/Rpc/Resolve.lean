import ChiNettest.Rpc.Identity

/-!
# Rpc/Resolve — how resolving a host list ends

`addressOf` is the address a name should be entered with: itself for an address literal, otherwise
the first of the list the resolver found.  `_GetIpAddress` returns it where there is one
(`getIpAddress_eq_ok_iff`); where there is none it stops, in a `HELOG(kFatal)` or — for a name the
resolver reports unknown by a null result and an untouched `hostent` — in a read through the null
address list (`getIpAddress_of_none`).  The loop of `ServerInit` ends the way its first such name
does, and completes when there is none (`emplaceHosts_of_missing`, `emplaceHosts_of_all`).
-/

namespace ChiNettest

/-- The first address of a name. -/
def addressOf (res : Resolver) (name : String) : Option String :=
  if looksLikeIp name then some name
  else match res.gethostbyname name with
    | .found (addr :: _) => some (inetNtop addr)
    | _ => none

/-- **The first name of a list without an address.** -/
def firstMissing (res : Resolver) (names : List String) : Option String :=
  names.find? fun name => (addressOf res name).isNone

/-! ## One name -/

/-- **`_GetIpAddress` returns the first address.** -/
theorem getIpAddress_eq_ok_iff {res : Resolver} {name addr : String} :
    getIpAddress res name = .ok addr ↔ addressOf res name = some addr := by
  rw [getIpAddress, addressOf]
  split
  · simp
  · rcases res.gethostbyname name with _ | _ | _ | ⟨_, _⟩ <;> simp

/-- The way a name without an address ends. -/
def missingExn (res : Resolver) (name : String) : Exn :=
  if res.gethostbyname name = .unknown then .nullAccess else .fatal (res.hstrerror name)

/-- **A name without an address ends in a null access if the resolver reports it unknown**, and in
the fatal branch otherwise. -/
theorem getIpAddress_of_none {res : Resolver} {name : String} (h : addressOf res name = none) :
    getIpAddress res name = .error (missingExn res name) := by
  rw [addressOf] at h
  rw [getIpAddress, missingExn]
  split at h
  · cases h
  · rename_i hliteral
    rw [if_neg hliteral]
    rcases hlookup : res.gethostbyname name with _ | _ | _ | ⟨_, _⟩ <;> simp_all

/-! ## The list -/

/-- **The loop ends the way the first name without an address does.** -/
theorem emplaceHosts_of_missing {res : Resolver} {name : String} :
    ∀ {names : List String} (nodeId : NodeId), firstMissing res names = some name →
      emplaceHosts res names nodeId = .error (missingExn res name)
  | [], _, h => by cases h
  | first :: names, nodeId, h => by
      rw [firstMissing, List.find?_cons] at h
      cases haddr : addressOf res first with
      | none =>
        obtain rfl : first = name := by simpa [haddr] using h
        rw [emplaceHosts, getIpAddress_of_none haddr, except_error_bind]
      | some addr =>
        have hrest : firstMissing res names = some name := by simpa [firstMissing, haddr] using h
        rw [emplaceHosts, getIpAddress_eq_ok_iff.mpr haddr, except_ok_bind,
          emplaceHosts_of_missing (nodeId + 1) hrest, except_error_bind]

/-- **With no such name it completes**, every name entered under its first address. -/
theorem emplaceHosts_of_all {res : Resolver} :
    ∀ {names : List String} (nodeId : NodeId), firstMissing res names = none →
      ∃ hosts, emplaceHosts res names nodeId = .ok hosts ∧ hosts.map HostInfo.hostname = names ∧
        hosts.map (fun host => some host.ipAddr) = names.map (addressOf res)
  | [], _, _ => ⟨[], rfl, rfl, rfl⟩
  | first :: names, nodeId, h => by
      obtain ⟨hfirst, hrest⟩ := List.forall_mem_cons.mp (List.find?_eq_none.mp h)
      obtain ⟨addr, haddr⟩ : ∃ addr, addressOf res first = some addr := by
        simpa [Option.isNone_iff_eq_none, Option.ne_none_iff_exists'] using hfirst
      obtain ⟨hosts, hhosts, hnames, haddrs⟩ :=
        emplaceHosts_of_all (nodeId + 1) (List.find?_eq_none.mpr hrest)
      refine ⟨⟨first, addr, nodeId⟩ :: hosts, ?_, ?_, ?_⟩
      · rw [emplaceHosts, getIpAddress_eq_ok_iff.mpr haddr, except_ok_bind, hhosts, except_ok_bind]
        rfl
      · rw [List.map_cons, hnames]
      · rw [List.map_cons, List.map_cons, haddrs, haddr]

/-- **The loop completes with every name under its first address, or stops in the fatal branch at
the first name that has none.** -/
def EndsOrFatal (res : Resolver) (names : List String) : Prop :=
  (∃ hosts, emplaceHosts res names 1 = .ok hosts ∧ hosts.map HostInfo.hostname = names ∧
    hosts.map (fun host => some host.ipAddr) = names.map (addressOf res)) ∨
  ∃ name, firstMissing res names = some name ∧
    emplaceHosts res names 1 = .error (.fatal (res.hstrerror name))

/-- **It does unless the first name without an address is one the resolver reports unknown.** -/
theorem endsOrFatal_iff (res : Resolver) (names : List String) : EndsOrFatal res names ↔
    ∀ name, firstMissing res names = some name → res.gethostbyname name ≠ .unknown := by
  cases hmissing : firstMissing res names with
  | none => exact iff_of_true (.inl (emplaceHosts_of_all 1 hmissing)) fun _ h => by cases h
  | some name =>
    have hend := emplaceHosts_of_missing 1 hmissing
    have hone : (∀ other, some name = some other → res.gethostbyname other ≠ .unknown) ↔
        res.gethostbyname name ≠ .unknown :=
      ⟨fun h => h name rfl, fun h _ hother => Option.some.inj hother ▸ h⟩
    rw [hone]
    constructor
    · rintro (⟨hosts, hhosts, -, -⟩ | ⟨other, hother, hfatal⟩) hunknown
      · cases hend.symm.trans hhosts
      · have hexn := Except.error.inj (hend.symm.trans hfatal)
        rw [missingExn, if_pos hunknown] at hexn
        cases hexn
    · intro hknown
      refine .inr ⟨name, hmissing, ?_⟩
      rw [hend, missingExn, if_neg hknown]

/-- **A mistyped host of a host file is read through the null address list.** -/
theorem not_endsOrFatal_mistyped :
    firstMissing addressesOnly ["10.0.0.1", "nodde02"] = some "nodde02" ∧
      addressesOnly.gethostbyname "nodde02" = .unknown ∧
      emplaceHosts addressesOnly ["10.0.0.1", "nodde02"] 1 = .error .nullAccess ∧
      ¬ EndsOrFatal addressesOnly ["10.0.0.1", "nodde02"] := by
  have hnull : emplaceHosts addressesOnly ["10.0.0.1", "nodde02"] 1 = .error .nullAccess := by
    decide
  refine ⟨by decide, rfl, hnull, ?_⟩
  rintro (⟨hosts, hhosts, -, -⟩ | ⟨name, -, hfatal⟩)
  · cases hnull.symm.trans hhosts
  · cases hnull.symm.trans hfatal

end ChiNettest
