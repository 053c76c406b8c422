import ChiNettest.Machinery.Prog
import Mathlib.Data.List.Nodup

/-!
# Machinery/Owned — objects opened one on another, and closed again

An object may be used only while it is open, opened only while it is not and what it stands on is,
closed only while it is open and nothing open stands on it.  A computation that does otherwise ends
in a `Misuse`, so one that returns has done all of that; what it has open then is part of its state.

A program that opens a chain of objects, and closes what it has so far where a call fails, is
`tryAll`.  If it closes exactly what is open behind each call (`CleansUp`), the chain is left either
with everything open or with nothing of it (`runs_tryAll_failed`, `runs_tryAll_done`).
-/

namespace ChiNettest.Owned

open Prog

variable {ρ μ ι α β : Type}

/-- What is done to an object that may not be. -/
inductive Misuse (ρ : Type)
  | openedTwice (r : ρ)
  | notOpen (r : ρ)
  /-- closed under an object that is open -/
  | stoodOn (r : ρ)
  deriving DecidableEq, Repr

/-- What a program has open, the last opened first, and what it has said so far. -/
structure Owner (ρ μ : Type) where
  held : List ρ := []
  log : List μ := []
  deriving DecidableEq, Repr

/-- A computation with objects `ρ` that says `μ`s. -/
abbrev OwnerProg (ρ μ α : Type) : Type := Prog (Misuse ρ) (Owner ρ μ) α

/-! ## What can be done to an object -/

section Operations

variable [DecidableEq ρ] (under : ρ → List ρ)

/-- Use an object. -/
def touch (r : ρ) : OwnerProg ρ μ Unit := do
  let s ← get
  if r ∈ s.held then pure () else throw (.notOpen r)

/-- Open an object, on those `under` it. -/
def acquire (r : ρ) : OwnerProg ρ μ Unit := do
  forEach (under r) touch
  let s ← get
  if r ∈ s.held then throw (.openedTwice r) else set { s with held := r :: s.held }

/-- Close an object. -/
def release (r : ρ) : OwnerProg ρ μ Unit := do
  touch r
  let s ← get
  if ∃ q ∈ s.held, r ∈ under q then throw (.stoodOn r)
  else set { s with held := s.held.erase r }

/-- Say something. -/
def say (m : μ) : OwnerProg ρ μ Unit := modify fun s => { s with log := s.log ++ [m] }

end Operations

/-! ## Runs -/

/-- **From `held` the computation returns `a`, has said `said`, and has `held'` open.** -/
def Runs (p : OwnerProg ρ μ α) (held : List ρ) (a : α) (said : List μ) (held' : List ρ) : Prop :=
  ∀ log, p.run ⟨held, log⟩ = some (.ok a, ⟨held', log ++ said⟩)

section Runs

variable {p : OwnerProg ρ μ α} {f : α → OwnerProg ρ μ β} {held held' held'' : List ρ} {a : α}
  {b : β} {m n : List μ}

theorem runs_pure (a : α) (held : List ρ) :
    Runs (pure a : OwnerProg ρ μ α) held a [] held := fun log => by
  rw [run_pure, List.append_nil]

theorem Runs.bind (hp : Runs p held a m held') (hf : Runs (f a) held' b n held'') :
    Runs (p >>= f) held b (m ++ n) held'' := fun log => by
  rw [run_bind_ok (hp log), hf, List.append_assoc]

/-- One computation after the other. -/
theorem Runs.seq {q : OwnerProg ρ μ β} (hp : Runs p held a m held') (hq : Runs q held' b n held'') :
    Runs (p >>= fun _ => q) held b (m ++ n) held'' :=
  hp.bind hq

theorem runs_say (w : μ) (held : List ρ) : Runs (say w) held () [w] held := fun _ => rfl

/-- **A loop each turn of which leaves open what it found open.** -/
theorem runs_forEach {body : ι → OwnerProg ρ μ PUnit} {said : ι → List μ} :
    ∀ {cs : List ι}, (∀ c ∈ cs, Runs (body c) held ⟨⟩ (said c) held) →
      Runs (forEach cs body) held ⟨⟩ (cs.flatMap said) held
  | [], _ => runs_pure _ _
  | c :: cs, h => by
      rw [forEach_cons, List.flatMap_cons]
      exact (h c List.mem_cons_self).seq
        (runs_forEach fun d hd => h d (List.mem_cons_of_mem c hd))

end Runs

section Operations

variable [DecidableEq ρ] {under : ρ → List ρ} {held : List ρ} {r : ρ}

theorem runs_touch (hr : r ∈ held) : Runs (touch r : OwnerProg ρ μ Unit) held () [] held :=
  fun log => by
    have hget : (get : OwnerProg ρ μ (Owner ρ μ)).run ⟨held, log⟩
        = some (.ok ⟨held, log⟩, ⟨held, log⟩) := rfl
    rw [touch, run_bind_ok hget, if_pos hr, run_pure, List.append_nil]

/-- What is used is open. -/
theorem runs_touches {rs : List ρ} (hrs : ∀ r ∈ rs, r ∈ held) :
    Runs (forEach rs touch : OwnerProg ρ μ PUnit) held ⟨⟩ [] held := by
  have hone : ∀ r ∈ rs, Runs (touch r : OwnerProg ρ μ PUnit) held ⟨⟩ ((fun _ => []) r) held :=
    fun r hr => runs_touch (hrs r hr)
  have hloop := runs_forEach hone
  rwa [List.flatMap_eq_nil_iff.mpr fun _ _ => rfl] at hloop

theorem runs_acquire (hfree : r ∉ held) (hunder : ∀ q ∈ under r, q ∈ held) :
    Runs (acquire under r : OwnerProg ρ μ Unit) held () [] (r :: held) := fun log => by
  have htouch := runs_touches (μ := μ) hunder log
  rw [List.append_nil] at htouch
  have hget : (get : OwnerProg ρ μ (Owner ρ μ)).run ⟨held, log⟩
      = some (.ok ⟨held, log⟩, ⟨held, log⟩) := rfl
  rw [acquire, run_bind_ok htouch, run_bind_ok hget, if_neg hfree, List.append_nil]
  rfl

theorem runs_release (hr : r ∈ held) (hfree : ∀ q ∈ held, r ∉ under q) :
    Runs (release under r : OwnerProg ρ μ Unit) held () [] (held.erase r) := fun log => by
  have htouch := runs_touch (μ := μ) hr log
  rw [List.append_nil] at htouch
  have hget : (get : OwnerProg ρ μ (Owner ρ μ)).run ⟨held, log⟩
      = some (.ok ⟨held, log⟩, ⟨held, log⟩) := rfl
  have hnone : ¬ ∃ q ∈ held, r ∈ under q := fun ⟨q, hq, hmem⟩ => hfree q hq hmem
  rw [release, run_bind_ok htouch, run_bind_ok hget, if_neg hnone, List.append_nil]
  rfl

/-! ## Stacks of objects -/

/-- **Objects opened in this order**: none twice, each on objects that are open. -/
def Stacked (under : ρ → List ρ) : List ρ → Prop
  | [] => True
  | r :: held => (r ∉ held ∧ ∀ q ∈ under r, q ∈ held) ∧ Stacked under held

instance decidableStacked (under : ρ → List ρ) : ∀ held, Decidable (Stacked under held)
  | [] => inferInstanceAs (Decidable True)
  | r :: held =>
    have := decidableStacked under held
    inferInstanceAs (Decidable ((r ∉ held ∧ ∀ q ∈ under r, q ∈ held) ∧ _))

omit [DecidableEq ρ] in
/-- What stands on an object of the stack is in the stack under it. -/
theorem Stacked.under_mem : ∀ {held : List ρ}, Stacked under held → ∀ q ∈ held,
    ∀ r ∈ under q, r ∈ held
  | _ :: _, h, q, hq, r, hr => by
      rcases List.mem_cons.mp hq with rfl | hq
      · exact List.mem_cons_of_mem _ (h.1.2 r hr)
      · exact List.mem_cons_of_mem _ (h.2.under_mem q hq r hr)

/-- **Nothing stands on the last object opened.** -/
theorem Stacked.runs_release_top (h : Stacked under (r :: held)) :
    Runs (release under r : OwnerProg ρ μ Unit) (r :: held) () [] held := by
  have hfree : ∀ q ∈ r :: held, r ∉ under q := by
    intro q hq hr
    rcases List.mem_cons.mp hq with rfl | hq
    · exact h.1.1 (h.1.2 q hr)
    · exact h.1.1 (h.2.under_mem q hq r hr)
  have hclose := runs_release (μ := μ) List.mem_cons_self hfree
  rwa [List.erase_cons_head] at hclose

/-- **Closing the top of a stack**, from the last object opened on. -/
theorem Stacked.runs_releases : ∀ {rs : List ρ}, Stacked under (rs ++ held) →
    Runs (forEach rs (release under) : OwnerProg ρ μ PUnit) (rs ++ held) ⟨⟩ [] held
  | [], _ => runs_pure _ _
  | _ :: _, h => by
      rw [forEach_cons]
      exact h.runs_release_top.seq h.2.runs_releases

/-- Opening a stack of objects, from the lowest up. -/
theorem Stacked.runs_acquires : ∀ {rs : List ρ}, Stacked under (rs ++ held) →
    Runs (forEach rs.reverse (acquire under) : OwnerProg ρ μ PUnit) held ⟨⟩ [] (rs ++ held)
  | [], _ => runs_pure _ _
  | r :: rs, h => by
      rw [List.reverse_cons, forEach_append]
      exact h.2.runs_acquires.seq ((runs_acquire h.1.1 h.1.2).seq (runs_pure _ _))

/-- Closing the bottom of a stack of objects with nothing on them. -/
theorem runs_releases_bottom : ∀ {rs : List ρ}, (held ++ rs).Nodup →
    (∀ r ∈ rs, ∀ q ∈ held ++ rs, r ∉ under q) →
    Runs (forEach rs (release under) : OwnerProg ρ μ PUnit) (held ++ rs) ⟨⟩ [] held
  | [], _, _ => by
      rw [List.append_nil]
      exact runs_pure _ _
  | r :: rs, hnodup, hfree => by
      have hr : r ∈ held ++ r :: rs := List.mem_append_right held List.mem_cons_self
      have herase : (held ++ r :: rs).erase r = held ++ rs := by
        have hnot : r ∉ held := fun hmem =>
          (List.nodup_append.mp hnodup).2.2 r hmem r List.mem_cons_self rfl
        rw [List.erase_append_right _ hnot, List.erase_cons_head]
      have hsub : List.Sublist (held ++ rs) (held ++ r :: rs) :=
        (List.sublist_cons_self r rs).append_left held
      have hclose := runs_release (μ := μ) hr (hfree r List.mem_cons_self)
      rw [herase] at hclose
      rw [forEach_cons]
      exact hclose.seq (runs_releases_bottom (hnodup.sublist hsub) fun r' hr' q hq =>
        hfree r' (List.mem_cons_of_mem r hr') q (hsub.subset hq))

end Operations

/-! ## Chains of calls that each open an object -/

/-- **A call that opens an object**, and what its program does where it fails. -/
structure Attempt (ρ μ : Type) where
  /-- what the call is made with -/
  needs : List ρ
  /-- what the program says of a failure: `none` where the call succeeds -/
  failure : Option μ
  /-- what the call opens -/
  opens : Option ρ
  /-- what the program closes after a failure -/
  cleanup : List ρ

section Attempts

variable [DecidableEq ρ] (under : ρ → List ρ)

/-- **The calls one after the other, then `done`**; `failed` behind one that fails. -/
def tryAll (done : OwnerProg ρ μ α) (failed : α) : List (Attempt ρ μ) → OwnerProg ρ μ α
  | [] => done
  | call :: calls => do
    forEach call.needs touch
    match call.failure with
    | some m =>
      say m
      forEach call.cleanup (release under)
      return failed
    | none =>
      forEach call.opens.toList (acquire under)
      tryAll done failed calls

/-- **Behind each call what has been opened since `base` is closed**, and what it opens can be. -/
def CleansUp (base : List ρ) : List ρ → List (Attempt ρ μ) → Prop
  | _, [] => True
  | opened, call :: calls =>
    call.cleanup = opened ∧ (∀ r ∈ call.needs, r ∈ opened ++ base) ∧
      Stacked under (call.opens.toList ++ (opened ++ base)) ∧
      CleansUp base (call.opens.toList ++ opened) calls

/-- What the calls open, the last first. -/
def openedBy (calls : List (Attempt ρ μ)) : List ρ := (calls.filterMap Attempt.opens).reverse

variable {under} {base opened : List ρ} {calls : List (Attempt ρ μ)} {done : OwnerProg ρ μ α}
  {failed : α}

omit [DecidableEq ρ] in
theorem openedBy_cons (call : Attempt ρ μ) (calls : List (Attempt ρ μ)) :
    openedBy (call :: calls) = openedBy calls ++ call.opens.toList := by
  rw [openedBy, openedBy, List.filterMap_cons]
  cases call.opens with
  | none => exact (List.append_nil _).symm
  | some r => exact List.reverse_cons

/-- The first call of a chain, where it succeeds. -/
theorem runs_tryAll_cons {call : Attempt ρ μ} {a : α} {said : List μ} {held : List ρ}
    (hcall : call.failure = none) (hneeds : ∀ r ∈ call.needs, r ∈ opened ++ base)
    (hopens : Stacked under (call.opens.toList ++ (opened ++ base)))
    (hrest : Runs (tryAll under done failed calls)
      ((call.opens.toList ++ opened) ++ base) a said held) :
    Runs (tryAll under done failed (call :: calls)) (opened ++ base) a said held := by
  have hopen : Runs (forEach call.opens.toList (acquire under) : OwnerProg ρ μ PUnit)
      (opened ++ base) ⟨⟩ [] (call.opens.toList ++ (opened ++ base)) := by
    cases hr : call.opens with
    | none => exact runs_pure _ _
    | some r =>
      rw [hr] at hopens
      have hone := (runs_acquire (μ := μ) hopens.1.1 hopens.1.2).seq (runs_pure PUnit.unit _)
      exact hone
  rw [List.append_assoc] at hrest
  rw [tryAll, hcall]
  exact (runs_touches hneeds).seq (hopen.seq hrest)

/-- **A chain whose first failing call says `m`** leaves nothing open. -/
theorem runs_tryAll_failed {m : μ} : ∀ {calls : List (Attempt ρ μ)} {opened : List ρ},
    Stacked under (opened ++ base) → CleansUp under base opened calls →
    calls.findSome? Attempt.failure = some m →
    Runs (tryAll under done failed calls) (opened ++ base) failed [m] base
  | call :: calls, opened, hstacked, ⟨hcleanup, hneeds, hopens, hclean⟩, h => by
      cases hcall : call.failure with
      | some m' =>
        rw [List.findSome?_cons, hcall] at h
        obtain rfl := Option.some.inj h
        rw [tryAll, hcall, hcleanup]
        exact (runs_touches hneeds).seq ((runs_say m' _).seq
          (hstacked.runs_releases.seq (runs_pure failed base)))
      | none =>
        rw [List.findSome?_cons, hcall] at h
        rw [← List.append_assoc] at hopens
        have hrest := runs_tryAll_failed hopens hclean h
        rw [List.append_assoc] at hopens
        exact runs_tryAll_cons hcall hneeds hopens hrest

/-- **A chain all of whose calls succeed** goes on with everything open. -/
theorem runs_tryAll_done {a : α} {said : List μ} {held : List ρ} :
    ∀ {calls : List (Attempt ρ μ)} {opened : List ρ}, CleansUp under base opened calls →
    (∀ call ∈ calls, call.failure = none) →
    Runs done (openedBy calls ++ opened ++ base) a said held →
    Runs (tryAll under done failed calls) (opened ++ base) a said held
  | [], _, _, _, hdone => hdone
  | call :: calls, opened, ⟨_, hneeds, hopens, hclean⟩, h, hdone => by
      rw [openedBy_cons, List.append_assoc (openedBy calls)] at hdone
      exact runs_tryAll_cons (h call List.mem_cons_self) hneeds hopens
        (runs_tryAll_done hclean (fun s hs => h s (List.mem_cons_of_mem call hs)) hdone)

end Attempts

end ChiNettest.Owned
