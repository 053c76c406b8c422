import Mathlib.Data.List.Basic

/-!
# Machinery/Runs — what holds in every state of a run

A system is a partial step function `step : σ → α → Option σ`; a run is a list of the actions taken
from a state.  `EveryStep` says something of each step taken, in the state it is taken in;
`EveryState` says something of each state passed through.

* `everyState_of_everyStep` — what every allowed step preserves holds in every state of a run of
  allowed steps;
* `everyStep_of_everyState` — what an invariant makes of a step holds of every step;
* `everyState_iff_everyStep` — where a step leaves a good state exactly if it is allowed, a run is
  good throughout exactly if all its steps are allowed;
* `length_add_le_of_measure`, `exists_stuck_of_measure` — where every step spends of a measure, a
  run is no longer than the measure it starts with, and can be extended until nothing can be done.
-/

namespace ChiNettest

section Runs

variable {σ α : Type*} (step : σ → α → Option σ)

/-- The state a run ends in: `none` where an action of it cannot be taken. -/
def exec : σ → List α → Option σ
  | s, [] => some s
  | s, a :: as => (step s a).bind fun s' => exec s' as

/-- **`P` holds in every state of the run.** -/
def EveryState (P : σ → Prop) : σ → List α → Prop
  | s, [] => P s
  | s, a :: as => P s ∧ ∀ s', step s a = some s' → EveryState P s' as

/-- **`C` holds of every step of the run**, in the state the step is taken in. -/
def EveryStep (C : σ → α → Prop) : σ → List α → Prop
  | _, [] => True
  | s, a :: as => ∀ s', step s a = some s' → C s a ∧ EveryStep C s' as

variable {step}

instance decidableEveryStep {C : σ → α → Prop} [∀ s a, Decidable (C s a)] :
    ∀ (s : σ) (as : List α), Decidable (EveryStep step C s as)
  | _, [] => inferInstanceAs (Decidable True)
  | s, a :: as =>
    match h : step s a with
    | none => isTrue fun _ hs' => absurd (h.symm.trans hs') nofun
    | some t =>
      have : Decidable (EveryStep step C t as) := decidableEveryStep t as
      decidable_of_iff (C s a ∧ EveryStep step C t as)
        ⟨fun hC _ hs' => Option.some.inj (h.symm.trans hs') ▸ hC, fun hC => hC t h⟩

theorem EveryState.head {P : σ → Prop} {s : σ} : ∀ {as : List α}, EveryState step P s as → P s
  | [], h => h
  | _ :: _, h => h.1

/-- The last state of a run is a state of it. -/
theorem EveryState.last {P : σ → Prop} :
    ∀ {as : List α} {s t : σ}, EveryState step P s as → exec step s as = some t → P t
  | [], s, t, h, hexec => Option.some.inj hexec ▸ h
  | a :: as, s, t, h, hexec => by
      obtain ⟨s', hs', hrest⟩ := Option.bind_eq_some_iff.mp hexec
      exact EveryState.last (h.2 s' hs') hrest

/-- What holds in every state of a run, a weaker property does. -/
theorem EveryState.mono {P Q : σ → Prop} (hPQ : ∀ s, P s → Q s) :
    ∀ {as : List α} {s : σ}, EveryState step P s as → EveryState step Q s as
  | [], s, h => hPQ s h
  | _ :: _, s, h => ⟨hPQ s h.1, fun s' hs' => (h.2 s' hs').mono hPQ⟩

/-- A run goes on where its first part ends. -/
theorem everyStep_append {C : σ → α → Prop} : ∀ {as bs : List α} {s : σ},
    EveryStep step C s (as ++ bs) ↔
      EveryStep step C s as ∧ ∀ t, exec step s as = some t → EveryStep step C t bs
  | [], bs, s => ⟨fun h => ⟨trivial, fun _ ht => Option.some.inj ht ▸ h⟩, fun h => h.2 s rfl⟩
  | a :: as, bs, s => by
      constructor
      · intro h
        refine ⟨fun s' hs' => ⟨(h s' hs').1, (everyStep_append.mp (h s' hs').2).1⟩, fun t ht => ?_⟩
        obtain ⟨s', hs', hexec⟩ := Option.bind_eq_some_iff.mp ht
        exact (everyStep_append.mp (h s' hs').2).2 t hexec
      · rintro ⟨h, hrest⟩ s' hs'
        refine ⟨(h s' hs').1, everyStep_append.mpr ⟨(h s' hs').2, fun t ht => ?_⟩⟩
        exact hrest t (Option.bind_eq_some_iff.mpr ⟨s', hs', ht⟩)

/-- What holds of every action of a run in any state holds of every step. -/
theorem everyStep_of_forall {C : σ → α → Prop} :
    ∀ {as : List α} {s : σ}, (∀ s, ∀ a ∈ as, C s a) → EveryStep step C s as
  | [], _, _ => trivial
  | a :: _, s, h => fun _ _ => ⟨h s a List.mem_cons_self,
      everyStep_of_forall fun s b hb => h s b (List.mem_cons_of_mem a hb)⟩

/-- **The invariant rule.**  An invariant every allowed step preserves holds in every state of a
run of allowed steps. -/
theorem everyState_of_everyStep {I : σ → Prop} {C : σ → α → Prop}
    (hstep : ∀ s a s', I s → C s a → step s a = some s' → I s') :
    ∀ {as : List α} {s : σ}, I s → EveryStep step C s as → EveryState step I s as
  | [], _, hs, _ => hs
  | a :: _, s, hs, h => ⟨hs, fun s' hs' =>
      everyState_of_everyStep hstep (hstep s a s' hs (h s' hs').1 hs') (h s' hs').2⟩

/-- **What an invariant makes of a step holds of every step** of a run the invariant holds in. -/
theorem everyStep_of_everyState {I : σ → Prop} {C : σ → α → Prop}
    (hstep : ∀ s a s', I s → step s a = some s' → C s a) :
    ∀ {as : List α} {s : σ}, EveryState step I s as → EveryStep step C s as
  | [], _, _ => trivial
  | a :: _, s, h => fun s' hs' =>
      ⟨hstep s a s' h.1 hs', everyStep_of_everyState hstep (h.2 s' hs')⟩

/-- **A run is good throughout exactly if all its steps are allowed**, where a step of a good state
leads to a good one exactly if it is allowed.  `J` holds in every state anyway. -/
theorem everyState_iff_everyStep {J P : σ → Prop} {C : σ → α → Prop}
    (hJ : ∀ s a s', J s → step s a = some s' → J s')
    (hexact : ∀ s a s', J s → P s → step s a = some s' → (P s' ↔ C s a)) :
    ∀ {as : List α} {s : σ}, J s → P s → (EveryState step P s as ↔ EveryStep step C s as)
  | [], _, _, hP => ⟨fun _ => trivial, fun _ => hP⟩
  | a :: as, s, hs, hP => by
      constructor
      · rintro ⟨-, h⟩ s' hs'
        have hP' : P s' := (h s' hs').head
        exact ⟨(hexact s a s' hs hP hs').mp hP',
          (everyState_iff_everyStep hJ hexact (hJ s a s' hs hs') hP').mp (h s' hs')⟩
      · intro h
        refine ⟨hP, fun s' hs' => ?_⟩
        have hP' : P s' := (hexact s a s' hs hP hs').mpr (h s' hs').1
        exact (everyState_iff_everyStep hJ hexact (hJ s a s' hs hs') hP').mpr (h s' hs').2

/-! ## Runs that come to an end -/

/-- **Nothing can be done.** -/
def Stuck (step : σ → α → Option σ) (s : σ) : Prop := ∀ a, step s a = none

/-- Where a run goes on from. -/
theorem exec_append : ∀ {as bs : List α} {s t : σ}, exec step s as = some t →
    exec step s (as ++ bs) = exec step t bs
  | [], _, _, _, h => Option.some.inj h ▸ rfl
  | a :: as, bs, s, t, h => by
      obtain ⟨s', hs', hexec⟩ := Option.bind_eq_some_iff.mp h
      rw [List.cons_append, exec, hs', Option.bind_some, exec_append hexec]

/-- A run leads from its states on: what every step preserves holds where a run ends. -/
theorem invariant_of_exec {I : σ → Prop} (hI : ∀ s a s', I s → step s a = some s' → I s')
    {as : List α} {s t : σ} (hs : I s) (h : exec step s as = some t) : I t := by
  have hall : EveryState step I s as :=
    everyState_of_everyStep (C := fun _ _ => True) (fun s a s' h _ => hI s a s' h) hs
      (everyStep_of_forall fun _ _ _ => trivial)
  exact hall.last h

section Measure

variable {I : σ → Prop} {μ : σ → ℕ}

/-- **A run spends one of the measure with each of its steps.** -/
theorem length_add_le_of_measure (hI : ∀ s a s', I s → step s a = some s' → I s')
    (hμ : ∀ s a s', I s → step s a = some s' → μ s' < μ s) :
    ∀ {as : List α} {s t : σ}, I s → exec step s as = some t → as.length + μ t ≤ μ s
  | [], s, t, _, h => by
      obtain rfl := Option.some.inj h
      exact Nat.le_of_eq (Nat.zero_add _)
  | a :: as, s, t, hs, h => by
      obtain ⟨s', hs', hexec⟩ := Option.bind_eq_some_iff.mp h
      have hstep : μ s' < μ s := hμ s a s' hs hs'
      have hrest := length_add_le_of_measure hI hμ (hI s a s' hs hs') hexec
      rw [List.length_cons]
      omega

/-- **Every run can be extended until nothing can be done.** -/
theorem exists_stuck_of_measure (hI : ∀ s a s', I s → step s a = some s' → I s')
    (hμ : ∀ s a s', I s → step s a = some s' → μ s' < μ s) (s : σ) (hs : I s) :
    ∃ as t, exec step s as = some t ∧ Stuck step t := by
  induction hm : μ s using Nat.strongRecOn generalizing s with
  | _ m ih =>
    by_cases hstuck : Stuck step s
    · exact ⟨[], s, rfl, hstuck⟩
    · obtain ⟨a, ha⟩ := not_forall.mp hstuck
      obtain ⟨s', hs'⟩ := Option.ne_none_iff_exists'.mp ha
      have hlt : μ s' < m := hm ▸ hμ s a s' hs hs'
      obtain ⟨as, t, hexec, ht⟩ := ih (μ s') hlt s' (hI s a s' hs hs') rfl
      exact ⟨a :: as, t, by rw [exec, hs', Option.bind_some, hexec], ht⟩

end Measure

end Runs

end ChiNettest
