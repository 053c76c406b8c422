import ChiNettest.Find.HostFile
import ChiNettest.Machinery.Owned

/-!
# Fabric/Entries — the lists `fi_getinfo` returns, walked and freed

Two programs walk a list of `fi_info` up to an entry they like, and free the list when they are
done.  `_IsAddressLocal` walks it with a pointer of its own and frees what `fi_getinfo` returned,
every entry once (`isAddressLocal_frees`).  `find_ip_from_fabric` advances the pointer it got, and
frees from there: what it walked past stays allocated (`findIpFromFabric_leaves`).
-/

namespace ChiNettest.Entries

open Prog Owned

/-! ## Lists of `fi_info` -/

/-- What `fi_allocinfo` and `fi_getinfo` allocate. -/
inductive InfoObj
  | hints
  /-- entry `i` of the list `fi_getinfo` returned -/
  | entry (i : ℕ)
  deriving DecidableEq, Repr

/-- No entry stands on another. -/
def InfoObj.under : InfoObj → List InfoObj := fun _ => []

theorem InfoObj.notMem_under (obj obj' : InfoObj) : obj ∉ obj'.under := List.not_mem_nil

/-- A function that works on a list of `fi_info`, and prints nothing. -/
abbrev InfoProg (α : Type) : Type := OwnerProg InfoObj Empty α

/-- `n` entries, from entry `k` on. -/
def entries (k n : ℕ) : List InfoObj := (List.range' k n).map .entry

/-- `fi_getinfo` returns a list of `n` entries. -/
def getinfo (n : ℕ) : InfoProg Unit := forEach (entries 0 n).reverse (acquire InfoObj.under)

/-- `fi_freeinfo` on a pointer to entry `k` of a list of `n`: null at its end. -/
def freeinfo (k n : ℕ) : InfoProg Unit := forEach (entries k (n - k)) (release InfoObj.under)

section Walk

variable {α β : Type} (f : α → Option β)

/-- **A walk from entry `k` to the first that `f` likes**: what `f` finds there, and where it is. -/
def walk : List α → ℕ → InfoProg (Option β × ℕ)
  | [], k => return (none, k)
  | cur :: info, k => do
    touch (.entry k)
    match f cur with
    | some found => return (some found, k)
    | none => walk info (k + 1)

/-- How many entries are walked past. -/
def passed (info : List α) : ℕ := info.findIdx fun cur => (f cur).isSome

variable {f}

theorem passed_le (info : List α) : passed f info ≤ info.length := List.findIdx_le_length

/-- Nothing is walked past where the first entry will do. -/
theorem entries_passed_eq_nil (info : List α) :
    entries 0 (passed f info) = [] ↔ ∀ cur ∈ info.head?, (f cur).isSome := by
  rw [entries, List.map_eq_nil_iff, List.range'_eq_nil_iff, passed]
  cases info with
  | nil => simp
  | cons cur info => cases hcur : (f cur).isSome <;> simp [List.findIdx_cons, hcur]

/-- **A walk over entries that are allocated.** -/
theorem runs_walk : ∀ {info : List α} {k : ℕ} {held : List InfoObj},
    (∀ obj ∈ entries k info.length, obj ∈ held) →
    Runs (walk f info k) held (info.findSome? f, k + passed f info) [] held
  | [], _, _, _ => runs_pure _ _
  | cur :: info, k, held, h => by
      rw [entries, List.length_cons, List.range'_succ, List.map_cons] at h
      have htouch : Runs (touch (.entry k) : InfoProg Unit) held () [] held :=
        runs_touch (h _ List.mem_cons_self)
      rw [walk, List.findSome?_cons, passed, List.findIdx_cons]
      cases hcur : f cur with
      | some found => exact htouch.seq (runs_pure _ _)
      | none =>
        have hrest := runs_walk fun obj hobj => h obj (List.mem_cons_of_mem _ hobj)
        rw [Nat.add_right_comm, Nat.add_assoc] at hrest
        exact htouch.seq hrest

end Walk

/-! ## Allocating and freeing -/

theorem nodup_entries (k n : ℕ) : (entries k n).Nodup :=
  List.Nodup.map (fun _ _ h => InfoObj.entry.inj h) (List.nodup_range' ..)

theorem stacked_of_nodup : ∀ {held : List InfoObj}, held.Nodup → Stacked InfoObj.under held
  | [], _ => trivial
  | _ :: _, h =>
    ⟨⟨(List.nodup_cons.mp h).1, fun q hq => absurd hq (q.notMem_under _)⟩,
      stacked_of_nodup (List.nodup_cons.mp h).2⟩

/-- Entries `k` and on stand behind those before. -/
theorem entries_append {k n : ℕ} (h : k ≤ n) : entries 0 k ++ entries k (n - k) = entries 0 n := by
  have hrange := List.range'_append_1 (s := 0) (m := k) (n := n - k)
  rw [Nat.zero_add, Nat.add_sub_cancel' h] at hrange
  rw [entries, entries, entries, ← hrange, List.map_append]

theorem hints_notMem_entries (k n : ℕ) : InfoObj.hints ∉ entries k n := fun h => by
  obtain ⟨i, -, hi⟩ := List.mem_map.mp h
  cases hi

theorem runs_getinfo (n : ℕ) :
    Runs (getinfo n) [.hints] () [] (entries 0 n ++ [.hints]) := by
  have hnodup : (entries 0 n ++ [InfoObj.hints]).Nodup := by
    refine List.nodup_append.mpr ⟨nodup_entries 0 n, List.nodup_singleton _, ?_⟩
    rintro obj hobj _ hhints rfl
    exact hints_notMem_entries 0 n (List.mem_singleton.mp hhints ▸ hobj)
  exact (stacked_of_nodup hnodup).runs_acquires

/-- The hints are freed from among the entries. -/
theorem runs_freeHints (n : ℕ) : Runs (release InfoObj.under .hints : InfoProg Unit)
    (entries 0 n ++ [.hints]) () [] (entries 0 n) := by
  have hmem : InfoObj.hints ∈ entries 0 n ++ [InfoObj.hints] := by simp
  have hfree : ∀ q ∈ entries 0 n ++ [InfoObj.hints], InfoObj.hints ∉ InfoObj.under q :=
    fun q _ => InfoObj.notMem_under _ q
  have hclose := runs_release (μ := Empty) hmem hfree
  rwa [List.erase_append_right _ (hints_notMem_entries 0 n), List.erase_cons_head,
    List.append_nil] at hclose

/-- **What is freed from entry `k` on leaves the entries before.** -/
theorem runs_freeinfo {k n : ℕ} (h : k ≤ n) :
    Runs (freeinfo k n) (entries 0 n) () [] (entries 0 k) := by
  have hnodup : (entries 0 k ++ entries k (n - k)).Nodup := by
    rw [entries_append h]
    exact nodup_entries 0 n
  have hfree : ∀ r ∈ entries k (n - k), ∀ q ∈ entries 0 k ++ entries k (n - k),
      r ∉ InfoObj.under q := fun r _ q _ => r.notMem_under q
  have hclose := runs_releases_bottom (μ := Empty) hnodup hfree
  rwa [entries_append h] at hclose

/-- **A list is walked to the first entry `f` likes, and freed from entry `start` of that on.** -/
theorem runs_walk_freeinfo {α β γ : Type} (f : α → Option β) (info : List α) (start : ℕ → ℕ)
    (ret : Option β → γ) (hstart : start (passed f info) ≤ info.length) :
    Runs (do
        getinfo info.length
        let (found, cur) ← walk f info 0
        release InfoObj.under .hints
        freeinfo (start cur) info.length
        return ret found : InfoProg γ)
      [.hints] (ret (info.findSome? f)) [] (entries 0 (start (passed f info))) := by
  have hwalk : Runs (walk f info 0) (entries 0 info.length ++ [.hints])
      (info.findSome? f, 0 + passed f info) [] (entries 0 info.length ++ [.hints]) :=
    runs_walk fun obj hobj => List.mem_append_left _ hobj
  rw [Nat.zero_add] at hwalk
  exact (runs_getinfo _).seq (hwalk.bind ((runs_freeHints _).seq
    ((runs_freeinfo hstart).seq (runs_pure _ _))))

/-- The hints come first. -/
theorem runs_hints {α : Type} {p : InfoProg α} {a : α} {held : List InfoObj}
    (hp : Runs p [.hints] a [] held) :
    Runs (do acquire InfoObj.under .hints; touch .hints; p) [] a [] held :=
  (runs_acquire List.not_mem_nil fun q hq => absurd hq (q.notMem_under _)).seq
    ((runs_touch List.mem_cons_self).seq hp)

/-- A failure behind the hints frees them. -/
theorem runs_failed {α : Type} (a : α) :
    Runs (do release InfoObj.under .hints; return a : InfoProg α) [.hints] a [] [] :=
  (runs_release (List.mem_singleton_self _) fun q _ => InfoObj.notMem_under _ q).seq
    (runs_pure _ _)

/-! ## `find_ip_from_fabric` -/

/-- The test of the loop of `find_ip_from_fabric`, and what it prints where it holds. -/
def onFabric (fabric : List UInt8) (cur : FabricInfo) : Option (List UInt8) :=
  match cur.srcAddr, cur.fabricName with
  | some addr, some testFabric =>
    if testFabric = fabric then some (asciiBytes (inetNtop addr)) else none
  | _, _ => none

/-- `find_ip_from_fabric`, whether `fi_allocinfo` returns hints and what `fi_getinfo` does.  The
hints are written to without a test. -/
def findIpFromFabric (allocinfo : Bool) (info : Option (List FabricInfo)) (fabric : List UInt8) :
    InfoProg (List UInt8) := do
  if allocinfo then acquire InfoObj.under .hints
  touch .hints
  match info with
  | none =>
    release InfoObj.under .hints
    return []
  | some info =>
    getinfo info.length
    let (result, cur) ← walk (onFabric fabric) info 0
    release InfoObj.under .hints
    freeinfo cur info.length
    return result.getD []

/-- The loop finds what the loop of `find_ip_from_fabric` does. -/
theorem findSome?_onFabric (fabric : List UInt8) : ∀ info : List FabricInfo,
    (info.findSome? (onFabric fabric)).getD [] = firstOnFabric fabric info
  | [] => rfl
  | ⟨srcAddr, fabricName⟩ :: info => by
      have ih := findSome?_onFabric fabric info
      rw [List.findSome?_cons, onFabric, firstOnFabric]
      cases srcAddr with
      | none => exact ih
      | some addr =>
        cases fabricName with
        | none => exact ih
        | some testFabric =>
          by_cases hfabric : testFabric = fabric
          · simp only [hfabric, if_true, Option.getD_some]
          · simp only [hfabric, if_false]
            exact ih

/-! ## `_IsAddressLocal` -/

/-- The test of the loop of `_IsAddressLocal`. -/
def hasAddress (addr : String) (cur : Option InAddr) : Option Unit :=
  match cur with
  | some sin => if addr == inetNtop sin then some () else none
  | none => none

/-- `RpcContext::_IsAddressLocal`, with what it allocates: a fatal error ends the process. -/
def isAddressLocal (fab : Fabric) (addr : String) : InfoProg (Except Exn Bool) := do
  if fab.fiAllocinfo then
    acquire InfoObj.under .hints
    touch .hints
    match fab.fiGetinfo with
    | .error ret =>
      release InfoObj.under .hints
      return .error (.fatal ("fi_getinfo failed: " ++ fab.fiStrerror (-ret)))
    | .ok info =>
      getinfo info.length
      let (found, _) ← walk (hasAddress addr) info 0
      release InfoObj.under .hints
      freeinfo 0 info.length
      return .ok found.isSome
  else
    return .error (.fatal "fi_allocinfo failed")

theorem isSome_findSome?_hasAddress (addr : String) : ∀ info : List (Option InAddr),
    (info.findSome? (hasAddress addr)).isSome
      = info.any fun cur => cur.any fun sin => addr == inetNtop sin
  | [] => rfl
  | none :: info => isSome_findSome?_hasAddress addr info
  | some sin :: info => by
      have ih := isSome_findSome?_hasAddress addr info
      rw [List.findSome?_cons, List.any_cons, hasAddress, Option.any_some]
      by_cases haddr : addr == inetNtop sin
      · simp only [haddr, if_true, Option.isSome_some, Bool.true_or]
      · simp only [haddr, Bool.false_or]
        exact ih

/-- **What `find_ip_from_fabric` leaves allocated.**  It returns the address `Find/HostFile` has it
return, reads and frees nothing that is not allocated, and leaves the entries before the first on
the fabric — none exactly if there is no list or its first entry is on the fabric.  Without hints it
writes to what it does not have. -/
theorem findIpFromFabric_leaves (info : Option (List FabricInfo)) (fabric : List UInt8) :
    (∃ t : Owner InfoObj Empty, (findIpFromFabric true info fabric).run {}
        = some (.ok (ChiNettest.findIpFromFabric info fabric), t) ∧
      t.held = entries 0 (passed (onFabric fabric) (info.getD [])) ∧
      (t.held = [] ↔ ∀ cur ∈ (info.getD []).head?, (onFabric fabric cur).isSome)) ∧
    (findIpFromFabric false info fabric).run {} = some (.error (.notOpen .hints), {}) := by
  refine ⟨⟨⟨entries 0 (passed (onFabric fabric) (info.getD [])), []⟩, ?_, rfl, ?_⟩, rfl⟩
  · cases info with
    | none => exact runs_hints (runs_failed []) []
    | some info =>
      have hlist := runs_walk_freeinfo (onFabric fabric) info id (fun found => found.getD [])
        (passed_le info)
      rw [findSome?_onFabric] at hlist
      exact runs_hints hlist []
  · exact entries_passed_eq_nil (info.getD [])

/-- **`_IsAddressLocal` frees what it allocates**, on every path that returns: it answers what
`Rpc/Context` has it answer, and reads and frees nothing that is not allocated. -/
theorem isAddressLocal_frees (fab : Fabric) (addr : String) :
    (isAddressLocal fab addr).run {} = some (.ok (ChiNettest.isAddressLocal fab addr), {}) := by
  rw [isAddressLocal, ChiNettest.isAddressLocal]
  split
  · cases fab.fiGetinfo with
    | error ret => exact runs_hints (runs_failed (Except.error _)) []
    | ok info =>
      have hlist := runs_walk_freeinfo (hasAddress addr) info (fun _ => 0)
        (fun found => (.ok found.isSome : Except Exn Bool)) (Nat.zero_le _)
      rw [isSome_findSome?_hasAddress] at hlist
      exact runs_hints hlist []
  · rfl

end ChiNettest.Entries
