import ChiNettest.Machinery.Runs
import Mathlib.Algebra.Group.Nat.Defs
import Mathlib.Algebra.Ring.Int.Defs
import Mathlib.Logic.Function.Basic

/-!
# Types/CacheTimer — which runs of a `CacheTimer` measure forward

`cur_ns_` has three writers: an absolute reading of the clock (`Refresh`), a relative one (`Tick`)
and a copy from another timer (`Wrap`).  `start_ns_` is a snapshot of it.  Next to each timer a
`Ledger` keeps what the timer is for: the intervals from `Resume` to `Pause` since the last `Reset`,
in the integers.

A step leaves every timer measuring forward exactly if it does not set `cur_ns_` behind the
snapshot (`measures_step_iff`), hence a run does throughout exactly if all its `Refresh`es and
`Wrap`s are of that kind (`cacheTimer_measures_iff`).
-/

namespace ChiNettest

/-! ## One timer -/

/-- `CacheTimer`. -/
structure CacheTimer where
  /-- the last reading of `timer_`, counted from the construction -/
  timer : UInt64
  curNs : UInt64
  startNs : UInt64
  netNs : UInt64
  deriving DecidableEq, Repr

namespace CacheTimer

/-- `CacheTimer::CacheTimer`. -/
def fresh : CacheTimer := ⟨0, 0, 0, 0⟩

/-- `CacheTimer::Wrap`. -/
def wrap (t other : CacheTimer) : CacheTimer := { t with curNs := other.curNs }

/-- `CacheTimer::Refresh`, with what `timer_.GetNsecFromStart()` returns. -/
def refresh (t : CacheTimer) (reading : UInt64) : CacheTimer :=
  { t with timer := reading, curNs := reading }

/-- `CacheTimer::Tick`. -/
def tick (t : CacheTimer) (nanosec : UInt64) : CacheTimer := { t with curNs := t.curNs + nanosec }

/-- `CacheTimer::GetNsecFromStart()`. -/
def getNsecFromStart (t : CacheTimer) : UInt64 := t.curNs - t.startNs

/-- `CacheTimer::GetNsecFromStart(start)`. -/
def getNsecSince (t : CacheTimer) (start : UInt64) : UInt64 :=
  if start < t.curNs then t.curNs - start else 0

/-- `CacheTimer::GetNsec`. -/
def getNsec (t : CacheTimer) : UInt64 := t.netNs

/-- `CacheTimer::Resume`. -/
def resume (t : CacheTimer) : CacheTimer := { t with startNs := t.curNs }

/-- `CacheTimer::Pause`. -/
def pause (t : CacheTimer) : CacheTimer :=
  { t with netNs := t.netNs + (t.curNs - t.startNs), startNs := t.curNs }

/-- `CacheTimer::Reset`. -/
def reset (t : CacheTimer) : CacheTimer := { t with startNs := t.curNs, netNs := 0 }

end CacheTimer

/-! ## What a timer is for -/

/-- **The intervals of a timer**, since its last `Reset`. -/
structure Ledger where
  /-- where the interval now open began -/
  opened : Option ℤ
  /-- how far `cur_ns_` went in each completed one -/
  advances : List ℤ
  /-- whether every `Pause` closed an interval, as it does where `Resume` and `Pause` alternate -/
  paired : Bool

namespace Ledger

def fresh : Ledger := ⟨none, [], true⟩

/-- An interval begins. -/
def resume (l : Ledger) (cur : ℤ) : Ledger := { l with opened := some cur }

/-- The open interval is completed. -/
def pause (l : Ledger) (cur : ℤ) : Ledger :=
  match l.opened with
  | some start => { l with opened := none, advances := l.advances ++ [cur - start] }
  | none => { l with paired := false }

/-- All intervals are forgotten, and of an open one what has passed. -/
def reset (l : Ledger) (cur : ℤ) : Ledger := ⟨l.opened.map fun _ => cur, [], true⟩

end Ledger

/-! ## Several timers -/

/-- A timer and its intervals. -/
structure Watched where
  timer : CacheTimer
  ledger : Ledger

/-- Several timers. -/
abbrev Timers (ι : Type*) : Type _ := ι → Watched

/-- An operation on a timer. -/
inductive TimerOp (ι : Type*)
  | wrap (other : ι)
  | refresh (reading : UInt64)
  | tick (nanosec : UInt64)
  | resume
  | pause
  | reset

section Timers

variable {ι : Type*}

namespace TimerOp

/-- **What may be relied on**: the readings of a clock never decrease, and no true sum reaches
`2 ^ 64`. -/
def Possible (t : CacheTimer) : TimerOp ι → Prop
  | refresh reading => t.timer ≤ reading
  | tick nanosec => t.curNs.toNat + nanosec.toNat < 2 ^ 64
  | pause => (t.netNs.toNat : ℤ) + (t.curNs.toNat - t.startNs.toNat) < 2 ^ 64
  | _ => True

instance (t : CacheTimer) : ∀ op : TimerOp ι, Decidable (op.Possible t)
  | refresh _ => inferInstanceAs (Decidable (_ ≤ _))
  | tick _ => inferInstanceAs (Decidable (_ < _))
  | pause => inferInstanceAs (Decidable (_ < _))
  | wrap _ => inferInstanceAs (Decidable True)
  | resume => inferInstanceAs (Decidable True)
  | reset => inferInstanceAs (Decidable True)

/-- A timer and its intervals after an operation, among the timers `s`. -/
def run (s : Timers ι) (w : Watched) : TimerOp ι → Watched
  | wrap other => { w with timer := w.timer.wrap (s other).timer }
  | refresh reading => { w with timer := w.timer.refresh reading }
  | tick nanosec => { w with timer := w.timer.tick nanosec }
  | resume => ⟨w.timer.resume, w.ledger.resume w.timer.curNs.toNat⟩
  | pause => ⟨w.timer.pause, w.ledger.pause w.timer.curNs.toNat⟩
  | reset => ⟨w.timer.reset, w.ledger.reset w.timer.curNs.toNat⟩

/-- **The operation leaves `cur_ns_` at or ahead of the snapshot.** -/
def KeepsOrder (s : Timers ι) (t : CacheTimer) : TimerOp ι → Prop
  | wrap other => t.startNs ≤ (s other).timer.curNs
  | refresh reading => t.startNs ≤ reading
  | _ => True

instance (s : Timers ι) (t : CacheTimer) : ∀ op : TimerOp ι, Decidable (op.KeepsOrder s t)
  | wrap _ => inferInstanceAs (Decidable (_ ≤ _))
  | refresh _ => inferInstanceAs (Decidable (_ ≤ _))
  | tick _ => inferInstanceAs (Decidable True)
  | resume => inferInstanceAs (Decidable True)
  | pause => inferInstanceAs (Decidable True)
  | reset => inferInstanceAs (Decidable True)

end TimerOp

/-- Freshly constructed timers. -/
def freshTimers : Timers ι := fun _ => ⟨.fresh, .fresh⟩

/-- One operation on one of the timers. -/
def timersStep [DecidableEq ι] (s : Timers ι) (act : ι × TimerOp ι) : Option (Timers ι) :=
  if act.2.Possible (s act.1).timer then
    some (Function.update s act.1 (act.2.run s (s act.1)))
  else none

/-! ## Measuring forward -/

/-- **The timer measures forward.** -/
structure Measures (w : Watched) : Prop where
  ordered : w.timer.startNs ≤ w.timer.curNs
  /-- the difference `GetNsecFromStart()` returns, and `Pause` adds, does not wrap -/
  elapsed : (w.timer.getNsecFromStart.toNat : ℤ) = w.timer.curNs.toNat - w.timer.startNs.toNat
  /-- `GetNsec()` is the sum of the completed intervals -/
  net : w.ledger.paired = true → (w.timer.getNsec.toNat : ℤ) = w.ledger.advances.sum
  forward : ∀ advance ∈ w.ledger.advances, 0 ≤ advance

/-- The open interval began at the snapshot. -/
def Linked (w : Watched) : Prop :=
  ∀ start, w.ledger.opened = some start → start = w.timer.startNs.toNat

/-- A difference of ordered counters is the true one. -/
theorem toNat_sub_eq {a b : UInt64} (h : b ≤ a) : ((a - b).toNat : ℤ) = a.toNat - b.toNat := by
  have hle : b.toNat ≤ a.toNat := UInt64.le_iff_toNat_le.mp h
  rw [UInt64.toNat_sub_of_le _ _ h]
  omega

/-- **The guarded overload returns what has passed since `start`, none if nothing has**, in any
state. -/
theorem CacheTimer.toNat_getNsecSince (t : CacheTimer) (start : UInt64) :
    (t.getNsecSince start).toNat = t.curNs.toNat - start.toNat := by
  rw [getNsecSince]
  split
  · rename_i hlt
    exact UInt64.toNat_sub_of_le _ _ (UInt64.le_of_lt hlt)
  · rename_i hge
    have hle : t.curNs.toNat ≤ start.toNat := UInt64.le_iff_toNat_le.mp (UInt64.not_lt.mp hge)
    exact (Nat.sub_eq_zero_of_le hle).symm

/-- Order is what the two differences need. -/
theorem measures_of_ordered {w : Watched} (hordered : w.timer.startNs ≤ w.timer.curNs)
    (hnet : w.ledger.paired = true → (w.timer.getNsec.toNat : ℤ) = w.ledger.advances.sum)
    (hforward : ∀ advance ∈ w.ledger.advances, 0 ≤ advance) : Measures w :=
  ⟨hordered, toNat_sub_eq hordered, hnet, hforward⟩

theorem measures_fresh : Measures ⟨.fresh, .fresh⟩ :=
  measures_of_ordered (UInt64.le_refl _) (fun _ => rfl) fun _ h => absurd h List.not_mem_nil

/-- A writer of `cur_ns_` keeps the timer measuring forward exactly if it does not set it behind the
snapshot. -/
theorem measures_setCur_iff {w : Watched} (h : Measures w) (timer curNs : UInt64) :
    Measures { w with timer := { w.timer with timer := timer, curNs := curNs } } ↔
      w.timer.startNs ≤ curNs :=
  ⟨Measures.ordered, fun hle => measures_of_ordered hle h.net h.forward⟩

/-- **`Pause` completes the open interval.** -/
theorem Measures.pause {w : Watched} (h : Measures w) (hlinked : Linked w)
    (hsum : (w.timer.netNs.toNat : ℤ) + (w.timer.curNs.toNat - w.timer.startNs.toNat) < 2 ^ 64) :
    Measures ⟨w.timer.pause, w.ledger.pause w.timer.curNs.toNat⟩ := by
  have helapsed := toNat_sub_eq h.ordered
  have hle : w.timer.startNs.toNat ≤ w.timer.curNs.toNat := UInt64.le_iff_toNat_le.mp h.ordered
  have hnet : (w.timer.pause.netNs.toNat : ℤ)
      = w.timer.netNs.toNat + (w.timer.curNs.toNat - w.timer.startNs.toNat) := by
    rw [CacheTimer.pause, UInt64.toNat_add, Nat.mod_eq_of_lt (by omega)]
    push_cast
    rw [helapsed]
  cases hopen : w.ledger.opened with
  | none =>
    -- no interval to close: nothing is promised until the next `Reset`
    rw [Ledger.pause, hopen]
    exact measures_of_ordered (UInt64.le_refl _) (fun hpaired => by cases hpaired) h.forward
  | some start =>
    have hstart : start = w.timer.startNs.toNat := hlinked start hopen
    rw [Ledger.pause, hopen]
    refine measures_of_ordered (UInt64.le_refl _) (fun hpaired => ?_) fun advance hadvance => ?_
    · have hbefore := h.net hpaired
      rw [CacheTimer.getNsec] at hbefore ⊢
      rw [hnet, hbefore, hstart, List.sum_append, List.sum_singleton]
    · rcases List.mem_append.mp hadvance with hold | hnew
      · exact h.forward advance hold
      · obtain rfl := List.mem_singleton.mp hnew
        omega

/-- **A possible operation leaves its timer measuring forward exactly if it keeps the order.** -/
theorem measures_run_iff {s : Timers ι} {w : Watched} (hlinked : Linked w) (h : Measures w)
    {op : TimerOp ι} (hpossible : op.Possible w.timer) :
    Measures (op.run s w) ↔ op.KeepsOrder s w.timer := by
  cases op with
  | wrap other => exact measures_setCur_iff h _ _
  | refresh reading => exact measures_setCur_iff h _ _
  | tick nanosec =>
    refine iff_of_true ((measures_setCur_iff h _ _).mpr ?_) trivial
    have hle : w.timer.startNs.toNat ≤ w.timer.curNs.toNat := UInt64.le_iff_toNat_le.mp h.ordered
    have hlt : w.timer.curNs.toNat + nanosec.toNat < 2 ^ 64 := hpossible
    rw [UInt64.le_iff_toNat_le, UInt64.toNat_add, Nat.mod_eq_of_lt hlt]
    omega
  | resume => exact iff_of_true (measures_of_ordered (UInt64.le_refl _) h.net h.forward) trivial
  | pause => exact iff_of_true (h.pause hlinked hpossible) trivial
  | reset =>
    refine iff_of_true (measures_of_ordered (UInt64.le_refl _) (fun _ => rfl) ?_) trivial
    exact fun _ hmem => absurd hmem List.not_mem_nil

/-- **The open interval begins at the snapshot after any operation**, in order or not. -/
theorem Linked.run {s : Timers ι} {w : Watched} (h : Linked w) (op : TimerOp ι) :
    Linked (op.run s w) := by
  cases op with
  | wrap other => exact h
  | refresh reading => exact h
  | tick nanosec => exact h
  | resume => exact fun start hstart => (Option.some.inj hstart).symm
  | pause =>
    intro start hstart
    cases hopen : w.ledger.opened with
    | none => simp [TimerOp.run, Ledger.pause, hopen] at hstart
    | some begun => simp [TimerOp.run, Ledger.pause, hopen] at hstart
  | reset =>
    intro start hstart
    obtain ⟨begun, -, rfl⟩ := Option.map_eq_some_iff.mp hstart
    rfl

/-- The turn an operation takes where `Resume` and `Pause` alternate. -/
def TimerOp.turn (running : Bool) : TimerOp ι → Option Bool
  | resume => if running then none else some true
  | pause => if running then some false else none
  | _ => some running

/-- An operation in its turn opens or closes an interval as it should. -/
theorem paired_run {s : Timers ι} {w : Watched} {op : TimerOp ι} {running next : Bool}
    (hturn : op.turn running = some next) (hopened : w.ledger.opened.isSome = running)
    (hpaired : w.ledger.paired = true) :
    (op.run s w).ledger.opened.isSome = next ∧ (op.run s w).ledger.paired = true := by
  cases op with
  | resume =>
    cases running with
    | true => cases hturn
    | false => exact ⟨Option.some.inj hturn, hpaired⟩
  | pause =>
    cases running with
    | true =>
      obtain ⟨start, hstart⟩ := Option.isSome_iff_exists.mp hopened
      simp only [TimerOp.run, Ledger.pause, hstart]
      exact ⟨Option.some.inj hturn, hpaired⟩
    | false => cases hturn
  | reset =>
    obtain rfl : running = next := Option.some.inj hturn
    exact ⟨Option.isSome_map.trans hopened, rfl⟩
  | _ => exact ⟨hopened.trans (Option.some.inj hturn), hpaired⟩

/-! ## Runs -/

variable [DecidableEq ι]

theorem timersStep_eq_some {s s' : Timers ι} {act : ι × TimerOp ι} :
    timersStep s act = some s' ↔ act.2.Possible (s act.1).timer ∧
      s' = Function.update s act.1 (act.2.run s (s act.1)) := by
  rw [timersStep]
  split <;> simp_all [eq_comm]

/-- **One operation leaves all timers measuring forward exactly if it keeps the order of its
own.** -/
theorem measures_step_iff {s s' : Timers ι} {act : ι × TimerOp ι} (hlinked : ∀ i, Linked (s i))
    (h : ∀ i, Measures (s i)) (hstep : timersStep s act = some s') :
    (∀ i, Measures (s' i)) ↔ act.2.KeepsOrder s (s act.1).timer := by
  obtain ⟨hpossible, rfl⟩ := timersStep_eq_some.mp hstep
  rw [Function.forall_update_iff s fun _ w => Measures w,
    measures_run_iff (hlinked act.1) (h act.1) hpossible]
  exact and_iff_left fun i _ => h i

theorem linked_step {s s' : Timers ι} {act : ι × TimerOp ι} (hlinked : ∀ i, Linked (s i))
    (hstep : timersStep s act = some s') : ∀ i, Linked (s' i) := by
  obtain ⟨-, rfl⟩ := timersStep_eq_some.mp hstep
  rw [Function.forall_update_iff s fun _ w => Linked w]
  exact ⟨(hlinked act.1).run act.2, fun i _ => hlinked i⟩

/-- **`Resume` and `Pause` of a timer alternate**, the next of the two a `Pause` if it is
`running`. -/
def Alternate (i : ι) : Bool → List (ι × TimerOp ι) → Prop
  | _, [] => True
  | running, (j, op) :: acts =>
    if j = i then ∃ next, op.turn running = some next ∧ Alternate i next acts
    else Alternate i running acts

/-- **Where they alternate, every `Pause` closes an interval.** -/
theorem paired_of_alternate {i : ι} : ∀ {acts : List (ι × TimerOp ι)} {running : Bool}
    {s s' : Timers ι}, Alternate i running acts → (s i).ledger.opened.isSome = running →
      (s i).ledger.paired = true → exec timersStep s acts = some s' → (s' i).ledger.paired = true
  | [], _, _, _, _, _, hpaired, hexec => Option.some.inj hexec ▸ hpaired
  | (j, op) :: acts, running, s, s', halt, hopened, hpaired, hexec => by
      obtain ⟨next, hstep, hexec⟩ := Option.bind_eq_some_iff.mp hexec
      obtain ⟨-, rfl⟩ := timersStep_eq_some.mp hstep
      rw [Alternate] at halt
      by_cases hj : j = i
      · subst hj
        obtain ⟨turn, hturn, halt⟩ := (if_pos rfl).mp halt
        obtain ⟨hopened, hpaired⟩ := paired_run (s := s) hturn hopened hpaired
        have hself : Function.update s j (op.run s (s j)) j = op.run s (s j) :=
          Function.update_self j _ s
        exact paired_of_alternate halt (by rw [hself]; exact hopened) (by rw [hself]; exact hpaired)
          hexec
      · rw [if_neg hj] at halt
        have hother : Function.update s j (op.run s (s j)) i = s i :=
          Function.update_of_ne (Ne.symm hj) _ s
        exact paired_of_alternate halt (by rw [hother]; exact hopened)
          (by rw [hother]; exact hpaired) hexec

/-- **A run measures forward throughout exactly if no `Refresh` and no `Wrap` of it sets a timer
behind its snapshot.** -/
theorem cacheTimer_measures_iff (acts : List (ι × TimerOp ι)) :
    EveryState timersStep (fun s => ∀ i, Measures (s i)) freshTimers acts ↔
      EveryStep timersStep (fun s act => act.2.KeepsOrder s (s act.1).timer) freshTimers acts :=
  everyState_iff_everyStep (fun _ _ _ hlinked hstep => linked_step hlinked hstep)
    (fun _ _ _ hlinked h hstep => measures_step_iff hlinked h hstep)
    (fun _ _ hnone => by cases hnone) fun _ => measures_fresh

end Timers

/-- A timer 100 ns old is resumed, then wraps one that was never refreshed. -/
def wrappedRun : List (ℕ × TimerOp ℕ) :=
  [(0, .refresh 100), (0, .resume), (0, .wrap 1), (0, .pause)]

/-- **Its `Pause` takes an interval of -100 ns for one of `2 ^ 64 - 100`.** -/
theorem not_measures_wrappedRun :
    ((exec timersStep freshTimers wrappedRun).map fun s =>
        ((s 0).timer.getNsec.toNat, (s 0).ledger.advances, (s 0).ledger.paired))
        = some (2 ^ 64 - 100, [-100], true) ∧
      ¬ EveryState timersStep (fun s => ∀ i, Measures (s i)) freshTimers wrappedRun := by
  have hend : ((exec timersStep freshTimers wrappedRun).map fun s =>
      ((s 0).timer.getNsec.toNat, (s 0).ledger.advances, (s 0).ledger.paired))
      = some (2 ^ 64 - 100, [-100], true) := by decide
  refine ⟨hend, fun h => ?_⟩
  obtain ⟨s, hs, hvalues⟩ := Option.map_eq_some_iff.mp hend
  have hadvances : (s 0).ledger.advances = [-100] :=
    congrArg (fun values : ℕ × List ℤ × Bool => values.2.1) hvalues
  have hforward := (h.last hs 0).forward (-100) (by simp [hadvances])
  exact absurd hforward (by decide)

end ChiNettest
