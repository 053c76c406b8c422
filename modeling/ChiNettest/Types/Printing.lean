import ChiNettest.Machinery.Text
import ChiNettest.Types.DomainQuery

/-!
# Types/Printing — what the text of a `DomainQuery` tells of it

`operator<<` prints five fields: the iteration algorithm, the scope, the selection, the numbers of
the selection, the subdomain.  Four of them come of chains of flag tests that stop at the first hit;
the chain of the numbers asks for `kRange` first, where the chain of the selection asks for it last.

No field holds the comma between two of them, so two queries print alike exactly if they show the
same (`print_eq_iff`).  What a factory's query shows is the call it was built by
(`print_build_eq_iff`), as long as the iteration flags keep to themselves; where they do not, the
numbers printed may reach into the bytes the factory never wrote (`print_build_congr_iff`).
-/

namespace ChiNettest

/-! ## Flags -/

/-- `flags_.Any(flag)` -/
def HshmAny.has (lib : HshmAny) (flag : Hshm → UInt32) (bits : UInt32) : Bool :=
  lib.any bits (flag lib.toHshm)

section Flags

variable (lib : Hshm)

/-- The flag of a query repeated until it succeeds. -/
def kRepUntilSuccess : UInt32 := lib.bitOpt 18

/-- The flag of a query to any one container. -/
def kChooseOne : UInt32 := lib.bitOpt 19

/-- The flag of a query forwarded to a leader. -/
def kForwardToLeader : UInt32 := lib.bitOpt 17

/-- The iteration flags. -/
def iterMask : UInt32 :=
  kBroadcast lib ||| kRepUntilSuccess lib ||| kChooseOne lib ||| kForwardToLeader lib

/-- The range and selection flags. -/
def targetMask : UInt32 :=
  kLocal lib ||| kDirect lib ||| kGlobal lib ||| kId lib ||| kHash lib ||| kRange lib

end Flags

/-! ## The members of a selection -/

namespace DomainSelection

/-- The first four bytes: `id_`, `hash_` and `range_.off_`. -/
def low (sel : DomainSelection) : UInt32 := UInt32.ofNat (ofLeBytes (sel.1.take 4))

/-- The last four bytes: `range_.count_`. -/
def high (sel : DomainSelection) : UInt32 := UInt32.ofNat (ofLeBytes (sel.1.drop 4))

/-- Four bytes are a `u32`. -/
theorem ofNat_ofLeBytes_inj {bs cs : List UInt8} (hbs : bs.length = 4) (hcs : cs.length = 4) :
    UInt32.ofNat (ofLeBytes bs) = UInt32.ofNat (ofLeBytes cs) ↔ bs = cs := by
  refine ⟨fun h => ?_, fun h => h ▸ rfl⟩
  have hread : ∀ ds : List UInt8, ds.length = 4 →
      (UInt32.ofNat (ofLeBytes ds)).toNat = ofLeBytes ds := by
    intro ds hds
    have hlt := ofLeBytes_lt ds
    rw [hds] at hlt
    exact UInt32.toNat_ofNat_of_lt' hlt
  have hvalue : ofLeBytes bs = ofLeBytes cs := by rw [← hread bs hbs, ← hread cs hcs, h]
  rw [← leBytes_ofLeBytes bs, ← leBytes_ofLeBytes cs, hbs, hcs, hvalue]

theorem length_take_four (sel : DomainSelection) : (sel.1.take 4).length = 4 := by
  rw [List.length_take, sel.2]
  rfl

theorem length_drop_four (sel : DomainSelection) : (sel.1.drop 4).length = 4 := by
  rw [List.length_drop, sel.2]

theorem low_inj {sel sel' : DomainSelection} :
    sel.low = sel'.low ↔ sel.1.take 4 = sel'.1.take 4 :=
  ofNat_ofLeBytes_inj sel.length_take_four sel'.length_take_four

theorem high_inj {sel sel' : DomainSelection} :
    sel.high = sel'.high ↔ sel.1.drop 4 = sel'.1.drop 4 :=
  ofNat_ofLeBytes_inj sel.length_drop_four sel'.length_drop_four

/-- A `u32` is read back from its four bytes. -/
theorem ofNat_ofLeBytes_leBytes (value : UInt32) :
    UInt32.ofNat (ofLeBytes (leBytes 4 value.toNat)) = value := by
  rw [ofLeBytes_leBytes value.toNat_lt, UInt32.ofNat_toNat]

@[simp] theorem low_setLow (sel : DomainSelection) (value : UInt32) :
    (sel.setLow value).low = value := by
  rw [low, setLow, List.take_left' (length_leBytes 4 value.toNat), ofNat_ofLeBytes_leBytes]

@[simp] theorem low_setHigh (sel : DomainSelection) (value : UInt32) :
    (sel.setHigh value).low = sel.low := by
  rw [low, setHigh, List.take_left' sel.length_take_four, low]

@[simp] theorem high_setHigh (sel : DomainSelection) (value : UInt32) :
    (sel.setHigh value).high = value := by
  rw [high, setHigh, List.drop_left' sel.length_take_four, ofNat_ofLeBytes_leBytes]

end DomainSelection

/-! ## Printing -/

namespace DomainQuery

/-- `DomainQuery::GetIterFlags` -/
def getIterFlags (lib : Hshm) (query : DomainQuery) : UInt32 := query.flags &&& iterMask lib

variable (lib : HshmAny)

/-- The scope flags are printed as. -/
def scopeText (flags : UInt32) : String :=
  if lib.has kLocal flags then "local"
  else if lib.has kGlobal flags then "global"
  else if lib.has kDirect flags then "direct"
  else ""

/-- The iteration algorithm flags are printed as. -/
def iterText (flags : UInt32) : String :=
  if lib.has kBroadcast flags then "broadcast"
  else if lib.has kRepUntilSuccess flags then "rep_until_success"
  else if lib.has kChooseOne flags then "choose_one"
  else if lib.has kForwardToLeader flags then "forward_to_leader"
  else ""

/-- The selection flags are printed as. -/
def selText (flags : UInt32) : String :=
  if lib.has kId flags then "id"
  else if lib.has kHash flags then "hash"
  else if lib.has kRange flags then "range"
  else ""

/-- The numbers of the selection a query is printed with. -/
def rangeText (query : DomainQuery) : String :=
  if lib.has kRange query.flags then
    toString query.sel.low.toNat ++ ":" ++ toString query.sel.high.toNat
  else if lib.has kId query.flags then toString query.sel.low.toNat
  else if lib.has kHash query.flags then toString query.sel.low.toNat
  else ""

/-- The text of a query: what `hshm::Formatter::format`, which is not part of the repository, makes
of `"DomainQuery(iter_algo={}, scope={}, sel={}, range={}, subdom={})"`, each `{}` being replaced by
the next argument. -/
def print (query : DomainQuery) : String :=
  "DomainQuery(iter_algo=" ++ iterText lib query.flags ++ ", scope=" ++ scopeText lib query.flags
    ++ ", sel=" ++ selText lib query.flags ++ ", range=" ++ rangeText lib query
    ++ ", subdom=" ++ toString query.subId.toNat ++ ")"

end DomainQuery

/-- The text of a resolved query: `node_ / dom_`. -/
def ResolvedDomainQuery.print (lib : HshmAny) (query : ResolvedDomainQuery) : String :=
  toString query.node.toNat ++ " / " ++ query.dom.print lib

/-! ## What a text tells -/

/-- **What a query shows**: the fields of its text. -/
structure Shown where
  subId : UInt32
  iter : String
  scope : String
  sel : String
  /-- the numbers of the selection -/
  range : List ℕ
  deriving DecidableEq, Repr

namespace DomainQuery

variable (lib : HshmAny) (query : DomainQuery)

/-- The numbers of the selection a query shows. -/
def shownRange : List ℕ :=
  if lib.has kRange query.flags then [query.sel.low.toNat, query.sel.high.toNat]
  else if lib.has kId query.flags then [query.sel.low.toNat]
  else if lib.has kHash query.flags then [query.sel.low.toNat]
  else []

/-- What a query shows. -/
def shown : Shown where
  subId := query.subId
  iter := iterText lib query.flags
  scope := scopeText lib query.flags
  sel := selText lib query.flags
  range := query.shownRange lib

/-- The numbers are printed one after the other. -/
theorem toList_rangeText :
    (query.rangeText lib).toList = joinNumbers ':' (query.shownRange lib) := by
  rw [rangeText, shownRange]
  split_ifs <;> simp [joinNumbers]

/-- The parts of the text between its commas. -/
def parts : List (List Char) :=
  ["DomainQuery(iter_algo=".toList ++ (iterText lib query.flags).toList,
    " scope=".toList ++ (scopeText lib query.flags).toList,
    " sel=".toList ++ (selText lib query.flags).toList,
    " range=".toList ++ (query.rangeText lib).toList,
    " subdom=".toList ++ (Nat.toDigits 10 query.subId.toNat ++ [')'])]

theorem toList_print : (query.print lib).toList = [','].intercalate (query.parts lib) := by
  have hscope : ", scope=".toList = ',' :: " scope=".toList := rfl
  have hsel : ", sel=".toList = ',' :: " sel=".toList := rfl
  have hrange : ", range=".toList = ',' :: " range=".toList := rfl
  have hsubdom : ", subdom=".toList = ',' :: " subdom=".toList := rfl
  have hend : ")".toList = [')'] := rfl
  unfold print
  rw [parts]
  simp only [String.toList_append, hscope, hsel, hrange, hsubdom, hend,
    List.intercalate_cons_cons, List.intercalate_singleton, List.append_assoc, List.cons_append,
    List.nil_append, Nat.toString_eq_ofList_toDigits, String.toList_ofList]

/-- **No part holds a comma.** -/
theorem not_mem_parts : ∀ part ∈ query.parts lib, ',' ∉ part := by
  have hiter : ',' ∉ (iterText lib query.flags).toList := by
    rw [iterText]
    split_ifs <;> decide
  have hscope : ',' ∉ (scopeText lib query.flags).toList := by
    rw [scopeText]
    split_ifs <;> decide
  have hsel : ',' ∉ (selText lib query.flags).toList := by
    rw [selText]
    split_ifs <;> decide
  have hrange : ',' ∉ (query.rangeText lib).toList := by
    rw [toList_rangeText]
    exact not_mem_joinNumbers (by decide) (by decide) _
  have hsubdom : ',' ∉ Nat.toDigits 10 query.subId.toNat := not_mem_toDigits (by decide) _
  intro part hpart
  simp only [parts, List.mem_cons, List.not_mem_nil, or_false] at hpart
  rcases hpart with rfl | rfl | rfl | rfl | rfl
  · simpa using hiter
  · simpa using hscope
  · simpa using hsel
  · simpa using hrange
  · simpa using hsubdom

theorem splitOn_print : (query.print lib).toList.splitOn ',' = query.parts lib := by
  rw [toList_print]
  exact List.splitOn_intercalate ',' (query.not_mem_parts lib) (List.cons_ne_nil _ _)

variable {lib query}

/-- **Queries print alike exactly if they show the same.** -/
theorem print_eq_iff {query' : DomainQuery} :
    query.print lib = query'.print lib ↔ query.shown lib = query'.shown lib := by
  constructor
  · intro h
    have hparts : query.parts lib = query'.parts lib := by
      rw [← splitOn_print, ← splitOn_print, h]
    simp only [parts, List.cons.injEq, List.append_cancel_left_eq, List.append_cancel_right_eq,
      String.toList_inj, and_true] at hparts
    obtain ⟨hiter, hscope, hsel, hrange, hsubdom⟩ := hparts
    have hnumbers : query.shownRange lib = query'.shownRange lib := by
      have hcolon : ':'.isDigit = false := by decide
      refine joinNumbers_injective hcolon ?_
      rw [← toList_rangeText, ← toList_rangeText, hrange]
    have hsubId : query.subId = query'.subId := UInt32.toNat_inj.mp (toDigits_injective hsubdom)
    rw [shown, shown, hiter, hscope, hsel, hnumbers, hsubId]
  · intro h
    obtain ⟨hsubId, hiter, hscope, hsel, hrange⟩ := Shown.mk.inj h
    have htext : query.rangeText lib = query'.rangeText lib := by
      rw [← String.toList_inj, toList_rangeText, toList_rangeText, hrange]
    unfold print
    rw [hiter, hscope, hsel, htext, hsubId]

end DomainQuery

/-- **Resolved queries print alike exactly if they are on the same node and show the same.** -/
theorem ResolvedDomainQuery.print_eq_iff {lib : HshmAny} {query query' : ResolvedDomainQuery} :
    query.print lib = query'.print lib ↔
      query.node = query'.node ∧ query.dom.shown lib = query'.dom.shown lib := by
  have hslash : " / ".toList = ' ' :: "/ ".toList := rfl
  have hblank : ∀ n : ℕ, ' ' ∉ Nat.toDigits 10 n := not_mem_toDigits (by decide)
  rw [print, print, ← String.toList_inj]
  simp only [String.toList_append, hslash, Nat.toString_eq_ofList_toDigits, String.toList_ofList,
    List.append_assoc, List.cons_append]
  rw [append_cons_inj (hblank _) (hblank _), List.append_cancel_left_eq, String.toList_inj,
    DomainQuery.print_eq_iff]
  exact and_congr_left fun _ => toDigits_injective.eq_iff.trans UInt32.toNat_inj

/-! ## What a factory's query shows -/

/-- A mask is laid over two sets of bits one by one. -/
theorem or_and_mask (a b mask : UInt32) :
    (a ||| b) &&& mask = a &&& mask ||| b &&& mask :=
  UInt32.toBitVec_inj.mp BitVec.and_or_distrib_right

namespace HshmAny.OnWords

variable {lib : HshmAny} (h : lib.OnWords)

include h

theorem has_eq (flag : Hshm → UInt32) (bits : UInt32) :
    lib.has flag bits = decide (bits &&& flag lib.toHshm ≠ 0) := h.any _ _

/-- A flag is among two sets of bits if it is among one of them. -/
theorem has_or (flag : Hshm → UInt32) (a b : UInt32) :
    lib.has flag (a ||| b) = (lib.has flag a || lib.has flag b) := by
  rw [h.has_eq, h.has_eq, h.has_eq, or_and_mask, ← Bool.decide_or]
  exact decide_eq_decide.mpr (by rw [ne_eq, UInt32.or_eq_zero_iff, not_and_or])

/-- A flag within a mask is seen through the mask. -/
theorem has_and_mask {flag mask : Hshm → UInt32}
    (hflag : mask lib.toHshm &&& flag lib.toHshm = flag lib.toHshm) (bits : UInt32) :
    lib.has flag (bits &&& mask lib.toHshm) = lib.has flag bits := by
  rw [h.has_eq, h.has_eq, UInt32.and_assoc, hflag]

/-- Bits with none of a mask hold no flag within it. -/
theorem has_eq_false {flag mask : Hshm → UInt32} {bits : UInt32}
    (hbits : lib.has mask bits = false)
    (hflag : mask lib.toHshm &&& flag lib.toHshm = flag lib.toHshm) :
    lib.has flag bits = false := by
  rw [h.has_eq, decide_eq_false_iff_not, not_not] at hbits
  rw [← h.has_and_mask hflag, hbits, h.has_eq, UInt32.zero_and]
  rfl

theorem flag_eq (n : ℕ) : lib.toHshm.bitOpt n = wordBits.bitOpt n := h.bitOpt n

theorem iterMask_and {flag : Hshm → UInt32}
    (hflag : flag ∈ [kBroadcast, kRepUntilSuccess, kChooseOne, kForwardToLeader]) :
    iterMask lib.toHshm &&& flag lib.toHshm = flag lib.toHshm := by
  simp only [List.mem_cons, List.not_mem_nil, or_false] at hflag
  rcases hflag with rfl | rfl | rfl | rfl <;>
    simp only [iterMask, kBroadcast, kRepUntilSuccess, kChooseOne, kForwardToLeader, h.flag_eq] <;>
    decide

theorem targetMask_and {flag : Hshm → UInt32}
    (hflag : flag ∈ [kLocal, kDirect, kGlobal, kId, kHash, kRange]) :
    targetMask lib.toHshm &&& flag lib.toHshm = flag lib.toHshm := by
  simp only [List.mem_cons, List.not_mem_nil, or_false] at hflag
  rcases hflag with rfl | rfl | rfl | rfl | rfl | rfl <;>
    simp only [targetMask, kLocal, kDirect, kGlobal, kId, kHash, kRange, h.flag_eq] <;>
    decide

end HshmAny.OnWords

namespace Factory

variable (lib : Hshm)

/-- The flags a call sets of its own. -/
def mask : Factory → UInt32
  | localId .. => kLocal lib ||| kId lib
  | global .. | globalBcast => kGlobal lib
  | range .. => kGlobal lib ||| kRange lib
  | directId .. => kDirect lib ||| kId lib
  | directHash .. => kDirect lib ||| kHash lib

/-- The iteration flags of a call. -/
def iterFlags : Factory → UInt32
  | localId .. => 0
  | global _ iterFlags | range _ _ _ iterFlags | directId _ _ iterFlags
  | directHash _ _ iterFlags => iterFlags
  | globalBcast => kBroadcast lib

/-- **The iteration flags of a call keep to themselves**: none of them is a range or selection flag.
-/
def Iterates (lib : HshmAny) (f : Factory) : Prop :=
  lib.has targetMask (f.iterFlags lib.toHshm) = false

instance (lib : HshmAny) (f : Factory) : Decidable (f.Iterates lib) :=
  inferInstanceAs (Decidable (lib.has targetMask (f.iterFlags lib.toHshm) = false))

/-- **What a call asks for.** -/
def asked (lib : HshmAny) (f : Factory) : Shown :=
  match f with
  | localId subId id => ⟨subId, "", "local", "id", [id.toNat]⟩
  | global subId iterFlags => ⟨subId, DomainQuery.iterText lib iterFlags, "global", "", []⟩
  | range subId off count iterFlags =>
    ⟨subId, DomainQuery.iterText lib iterFlags, "global", "range", [off.toNat, count.toNat]⟩
  | globalBcast => ⟨kGlobalContainers, "broadcast", "global", "", []⟩
  | directId subId id iterFlags =>
    ⟨subId, DomainQuery.iterText lib iterFlags, "direct", "id", [id.toNat]⟩
  | directHash subId hash iterFlags =>
    ⟨subId, DomainQuery.iterText lib iterFlags, "direct", "hash", [hash.toNat]⟩

end Factory

section OnWords

variable {lib : HshmAny} (h : lib.OnWords)

include h

/-- **A query's flags are its factory's own and its caller's.** -/
theorem flags_build (f : Factory) (prior : DomainQuery) :
    (f.build lib.toHshm prior).flags = f.mask lib.toHshm ||| f.iterFlags lib.toHshm := by
  have hset : ∀ bits : UInt32, lib.setBits 0 bits = bits := fun bits => by
    rw [h.setBits, UInt32.zero_or]
  cases f with
  | localId subId id => exact (hset _).trans UInt32.or_zero.symm
  | _ => exact hset _

/-- No factory sets an iteration flag of its own. -/
theorem mask_and_iterMask (f : Factory) : f.mask lib.toHshm &&& iterMask lib.toHshm = 0 := by
  cases f <;>
    simp only [Factory.mask, iterMask, kLocal, kDirect, kGlobal, kId, kHash, kRange, kBroadcast,
      kRepUntilSuccess, kChooseOne, kForwardToLeader, h.flag_eq] <;>
    decide

/-- **`GetIterFlags` of a factory's query are the iteration flags of its call.** -/
theorem getIterFlags_build (f : Factory) (prior : DomainQuery) :
    (f.build lib.toHshm prior).getIterFlags lib.toHshm
      = f.iterFlags lib.toHshm &&& iterMask lib.toHshm := by
  rw [DomainQuery.getIterFlags, flags_build h, or_and_mask, mask_and_iterMask h,
    UInt32.zero_or]

namespace DomainQuery

/-- **The iteration is printed by its flags alone.** -/
theorem iterText_and_iterMask (bits : UInt32) :
    iterText lib (bits &&& iterMask lib.toHshm) = iterText lib bits := by
  have hsee : ∀ flag ∈ [kBroadcast, kRepUntilSuccess, kChooseOne, kForwardToLeader],
      lib.has flag (bits &&& iterMask lib.toHshm) = lib.has flag bits :=
    fun flag hflag => h.has_and_mask (h.iterMask_and hflag) bits
  rw [iterText, hsee kBroadcast (by simp), hsee kRepUntilSuccess (by simp),
    hsee kChooseOne (by simp), hsee kForwardToLeader (by simp), iterText]

/-- A factory's query prints the iteration its caller asked for. -/
theorem iterText_build (f : Factory) (prior : DomainQuery) :
    iterText lib (f.build lib.toHshm prior).flags = iterText lib (f.iterFlags lib.toHshm) := by
  have hget := getIterFlags_build h f prior
  rw [← iterText_and_iterMask h, ← iterText_and_iterMask h (f.iterFlags lib.toHshm), ← hget,
    getIterFlags]

end DomainQuery

/-- Where a call's iteration flags keep to themselves, the others of a query are its factory's. -/
theorem has_build {f : Factory} (hf : f.Iterates lib) (prior : DomainQuery) (flag : Hshm → UInt32)
    (hflag : flag ∈ [kLocal, kDirect, kGlobal, kId, kHash, kRange]) :
    lib.has flag (f.build lib.toHshm prior).flags = lib.has flag (f.mask lib.toHshm) := by
  rw [flags_build h, h.has_or, h.has_eq_false hf (h.targetMask_and hflag), Bool.or_false]

/-- The flags each factory sets. -/
theorem has_mask (f : Factory) :
    [kLocal, kDirect, kGlobal, kId, kHash, kRange].map (lib.has · (f.mask lib.toHshm)) =
      match f with
      | .localId .. => [true, false, false, true, false, false]
      | .global .. | .globalBcast => [false, false, true, false, false, false]
      | .range .. => [false, false, true, false, false, true]
      | .directId .. => [false, true, false, true, false, false]
      | .directHash .. => [false, true, false, false, true, false] := by
  cases f <;>
    simp only [List.map_cons, List.map_nil, Factory.mask, h.has_eq, kLocal, kDirect, kGlobal, kId,
      kHash, kRange, h.flag_eq] <;>
    decide

/-- No flags are printed as no iteration. -/
theorem iterText_zero : DomainQuery.iterText lib 0 = "" := by
  simp [DomainQuery.iterText, h.has_eq]

theorem iterText_kBroadcast : DomainQuery.iterText lib (kBroadcast lib.toHshm) = "broadcast" := by
  have hbit : lib.has kBroadcast (kBroadcast lib.toHshm) = true := by
    simp only [h.has_eq, kBroadcast, h.flag_eq]
    decide
  rw [DomainQuery.iterText, if_pos hbit]

/-- **A factory's query shows what its call asked for**, whatever the memory held. -/
theorem shown_build {f : Factory} (hf : f.Iterates lib) (prior : DomainQuery) :
    (f.build lib.toHshm prior).shown lib = f.asked lib := by
  have hiter := DomainQuery.iterText_build h f prior
  have hhas := has_build h hf prior
  have hmask := has_mask h f
  rw [DomainQuery.shown, hiter, DomainQuery.scopeText, DomainQuery.selText, DomainQuery.shownRange,
    hhas kLocal (by simp), hhas kDirect (by simp), hhas kGlobal (by simp), hhas kId (by simp),
    hhas kHash (by simp), hhas kRange (by simp)]
  cases f <;> simp only [List.map_cons, List.map_nil, List.cons.injEq, and_true] at hmask
  case localId subId id =>
    simp [hmask, Factory.asked, Factory.iterFlags, iterText_zero h, Factory.build,
      DomainQuery.getLocalId, DomainQuery.start, DomainSelection.setId]
  case global subId iterFlags =>
    simp [hmask, Factory.asked, Factory.iterFlags, Factory.build, DomainQuery.getGlobal,
      DomainQuery.start]
  case range subId off count iterFlags =>
    simp [hmask, Factory.asked, Factory.iterFlags, Factory.build, DomainQuery.getRange,
      DomainQuery.start, DomainSelection.setRange]
  case globalBcast =>
    simp [hmask, Factory.asked, Factory.iterFlags, iterText_kBroadcast h, Factory.build,
      DomainQuery.getGlobalBcast, DomainQuery.start]
  case directId subId id iterFlags =>
    simp [hmask, Factory.asked, Factory.iterFlags, Factory.build, DomainQuery.getDirectId,
      DomainQuery.start, DomainSelection.setId]
  case directHash subId hash iterFlags =>
    simp [hmask, Factory.asked, Factory.iterFlags, Factory.build, DomainQuery.getDirectHash,
      DomainQuery.start, DomainSelection.setHash]

/-- **Two factories' queries print alike exactly if their calls ask for the same**, whatever the
memories held. -/
theorem print_build_eq_iff {f g : Factory} (hf : f.Iterates lib) (hg : g.Iterates lib)
    (prior prior' : DomainQuery) :
    (f.build lib.toHshm prior).print lib = (g.build lib.toHshm prior').print lib ↔
      f.asked lib = g.asked lib := by
  rw [DomainQuery.print_eq_iff, shown_build h hf, shown_build h hg]

end OnWords

/-! ## What a text gives away of the memory -/

namespace DomainQuery

/-- How many bytes of the selection are printed. -/
def printed (lib : HshmAny) (flags : UInt32) : ℕ :=
  if lib.has kRange flags then 8 else if lib.has kId flags || lib.has kHash flags then 4 else 0

/-- **Queries that differ in their selections alone print alike exactly if these agree on the bytes
printed.** -/
theorem print_eq_iff_take {lib : HshmAny} {query query' : DomainQuery}
    (hflags : query.flags = query'.flags) (hsubId : query.subId = query'.subId) :
    query.print lib = query'.print lib ↔
      query.sel.1.take (printed lib query.flags) = query'.sel.1.take (printed lib query.flags) := by
  have hall : ∀ sel : DomainSelection, sel.1.take 8 = sel.1 := fun sel =>
    List.take_of_length_le (Nat.le_of_eq sel.2)
  have hboth : query.sel.low = query'.sel.low ∧ query.sel.high = query'.sel.high ↔
      query.sel.1 = query'.sel.1 := by
    rw [DomainSelection.low_inj, DomainSelection.high_inj]
    refine ⟨fun ⟨hlow, hhigh⟩ => ?_, fun h => ⟨h ▸ rfl, h ▸ rfl⟩⟩
    rw [← List.take_append_drop 4 query.sel.1, hlow, hhigh, List.take_append_drop]
  rw [print_eq_iff, shown, shown, hflags, hsubId, Shown.mk.injEq]
  simp only [true_and, shownRange, printed, hflags]
  by_cases hrange : lib.has kRange query'.flags
  · simp [hrange, hall, UInt32.toNat_inj, hboth]
  · by_cases hid : lib.has kId query'.flags
    · simp [hrange, hid, UInt32.toNat_inj, DomainSelection.low_inj]
    · by_cases hhash : lib.has kHash query'.flags
      · simp [hrange, hid, hhash, UInt32.toNat_inj, DomainSelection.low_inj]
      · simp [hrange, hid, hhash]

end DomainQuery

namespace Factory

/-- The bytes of the selection a call writes. -/
def own : Factory → List UInt8
  | localId _ id => leBytes 4 id.toNat
  | global .. | globalBcast => []
  | range _ off count _ => leBytes 4 off.toNat ++ leBytes 4 count.toNat
  | directId _ id _ => leBytes 4 id.toNat
  | directHash _ hash _ => leBytes 4 hash.toNat

theorem length_own (f : Factory) : f.own.length = f.written := by
  cases f <;> simp [own, written]

/-- **A selection is what the call wrote, and then what the memory held.** -/
theorem sel_build (lib : Hshm) (f : Factory) (prior : DomainQuery) :
    (f.build lib prior).sel.1 = f.own ++ f.kept prior := by
  cases f with
  | range subId off count iterFlags =>
    have htake : (prior.sel.setLow off).1.take 4 = leBytes 4 off.toNat :=
      List.take_left' (length_leBytes 4 off.toNat)
    rw [own, kept_range, List.append_nil, ← htake]
    rfl
  | _ => rfl

/-- **The bytes printed that the call never wrote.** -/
def leaked (lib : HshmAny) : Factory → ℕ
  | localId .. | range .. | globalBcast => 0
  | global _ iterFlags => DomainQuery.printed lib iterFlags
  | directId _ _ iterFlags | directHash _ _ iterFlags => if lib.has kRange iterFlags then 4 else 0

end Factory

section OnWords

variable {lib : HshmAny} (h : lib.OnWords)

include h

/-- What is printed of a factory's query beyond what its call writes. -/
theorem printed_sub_written (f : Factory) (prior : DomainQuery) :
    DomainQuery.printed lib (f.build lib.toHshm prior).flags - f.written = f.leaked lib := by
  have hmask := has_mask h f
  have hzero : ∀ flag, lib.has flag 0 = false := fun flag => by simp [h.has_eq]
  rw [flags_build h, DomainQuery.printed, h.has_or, h.has_or, h.has_or]
  cases f <;> simp only [List.map_cons, List.map_nil, List.cons.injEq, and_true] at hmask
  case localId subId id => simp [hmask, Factory.iterFlags, Factory.written, Factory.leaked, hzero]
  case global subId iterFlags =>
    simp [hmask, Factory.iterFlags, Factory.written, Factory.leaked, DomainQuery.printed]
  case range subId off count iterFlags =>
    simp [hmask, Factory.iterFlags, Factory.written, Factory.leaked]
  case globalBcast =>
    have hbcast : ∀ flag ∈ [kId, kHash, kRange], lib.has flag (kBroadcast lib.toHshm) = false := by
      intro flag hflag
      simp only [List.mem_cons, List.not_mem_nil, or_false] at hflag
      rcases hflag with rfl | rfl | rfl <;>
        simp only [h.has_eq, kId, kHash, kRange, kBroadcast, h.flag_eq] <;>
        decide
    simp [hmask, Factory.iterFlags, Factory.written, Factory.leaked, hbcast]
  case directId subId id iterFlags =>
    by_cases hrange : lib.has kRange iterFlags <;>
      simp [hmask, Factory.iterFlags, Factory.written, Factory.leaked, hrange]
  case directHash subId hash iterFlags =>
    by_cases hrange : lib.has kRange iterFlags <;>
      simp [hmask, Factory.iterFlags, Factory.written, Factory.leaked, hrange]

/-- **A factory's query prints alike in two memories exactly if they agree on the bytes leaked.** -/
theorem print_build_congr_iff (f : Factory) (prior prior' : DomainQuery) :
    (f.build lib.toHshm prior).print lib = (f.build lib.toHshm prior').print lib ↔
      (f.kept prior).take (f.leaked lib) = (f.kept prior').take (f.leaked lib) := by
  have hflags : (f.build lib.toHshm prior).flags = (f.build lib.toHshm prior').flags := by
    rw [flags_build h, flags_build h]
  have hsubId : (f.build lib.toHshm prior).subId = (f.build lib.toHshm prior').subId := by
    cases f <;> rfl
  rw [DomainQuery.print_eq_iff_take hflags hsubId, f.sel_build, f.sel_build, List.take_append,
    List.take_append, List.append_cancel_left_eq, f.length_own, printed_sub_written h]

end OnWords

/-! ### Two memories -/

/-- **`GetLocalId` in cleared memory and in memory full of ones: two queries that differ, and one
text.** -/
theorem print_build_eq_iff_localId :
    ((Factory.localId 1 7).build wordFlags.toHshm (filled 0)).operatorEq
        ((Factory.localId 1 7).build wordFlags.toHshm (filled 255)) = false ∧
      ((Factory.localId 1 7).build wordFlags.toHshm (filled 0)).print wordFlags
        = ((Factory.localId 1 7).build wordFlags.toHshm (filled 255)).print wordFlags := by
  refine ⟨by decide, ?_⟩
  have hiterates : (Factory.localId 1 7).Iterates wordFlags := by decide
  exact (print_build_eq_iff wordFlags_onWords hiterates hiterates (filled 0) (filled 255)).mpr rfl

/-- **`GetDirectId` with a selection flag among its iteration flags: its text tells the memory.** -/
theorem print_build_congr_iff_directId :
    ((Factory.directId 1 7 (kRange wordBits)).build wordFlags.toHshm (filled 0)).print wordFlags
      ≠ ((Factory.directId 1 7 (kRange wordBits)).build wordFlags.toHshm (filled 255)).print
        wordFlags := by
  rw [ne_eq, print_build_congr_iff wordFlags_onWords]
  decide

end ChiNettest
