import Mathlib.Data.List.Basic

/-!
# Machinery/Prog — computations that throw, keep their state, and may not return

    Prog ε σ α  =  σ → Option (Except ε α × σ)

A computation ends in a value or in an exception, and either way leaves a state behind — an
exception does not undo what was done before it was thrown.  `none` is a loop whose fuel ran out.

A `for` loop is `forLoop`: a test, a step of the counter (which may itself throw) and a body.  Two
facts carry every use of it:

* `forLoop_eq_forEach` — a loop whose counter runs through `cs` and then fails its test *is* the
  traversal of `cs`, as soon as the fuel exceeds `cs.length`;
* `exists_exit_of_forLoop_ok` — a loop that returns normally has failed its test at some counter.

Where only the end of a computation matters, `Returns` and `Raises` say what it is from every state,
and are put together along the computation (`Returns.bind`, `Raises.tryCatch`, `raises_forEach`).
-/

namespace ChiNettest

/-! ## Plain results -/

section Except

variable {ε α β : Type}

theorem except_ok_bind (a : α) (f : α → Except ε β) : (Except.ok a >>= f) = f a := rfl

theorem except_error_bind (e : ε) (f : α → Except ε β) :
    (Except.error e >>= f) = Except.error e := rfl

theorem except_bind_eq_ok {x : Except ε α} {f : α → Except ε β} {b : β} :
    x >>= f = .ok b ↔ ∃ a, x = .ok a ∧ f a = .ok b := by
  cases x with
  | error e => simp [bind, Except.bind]
  | ok a => simp [bind, Except.bind]

theorem except_ite_error_eq_ok {p : Prop} [Decidable p] {e : ε} {x : Except ε α} {b : α} :
    (if p then .error e else x) = .ok b ↔ ¬p ∧ x = .ok b := by
  by_cases hp : p <;> simp [hp]

end Except

/-! ## Computations -/

/-- **A computation over the state `σ` with exceptions in `ε`**: `none` while it is still running
when the fuel is spent. -/
def Prog (ε σ α : Type) : Type := σ → Option (Except ε α × σ)

namespace Prog

variable {ε σ α β ι : Type}

/-- Run a computation from a state. -/
def run (p : Prog ε σ α) (s : σ) : Option (Except ε α × σ) := p s

/-- What follows a computation: its continuation after a value, nothing after an exception. -/
def andThen (f : α → Prog ε σ β) : Except ε α × σ → Option (Except ε β × σ)
  | (.ok a, s) => f a s
  | (.error e, s) => some (.error e, s)

/-- What an exception handler does with the end of a computation. -/
def orCatch (h : ε → Prog ε σ α) : Except ε α × σ → Option (Except ε α × σ)
  | (.ok a, s) => some (.ok a, s)
  | (.error e, s) => h e s

instance : Monad (Prog ε σ) where
  pure a := fun s => some (.ok a, s)
  bind p f := fun s => (p s).bind (andThen f)

instance : MonadExceptOf ε (Prog ε σ) where
  throw e := fun s => some (.error e, s)
  tryCatch p h := fun s => (p s).bind (orCatch h)

instance : MonadStateOf σ (Prog ε σ) where
  get := fun s => some (.ok s, s)
  set s' := fun _ => some (.ok (), s')
  modifyGet f := fun s => some (.ok (f s).1, (f s).2)

/-- A loop whose fuel is spent. -/
def outOfFuel : Prog ε σ α := fun _ => none

/-- A pure result, thrown or returned. -/
def lift (x : Except ε α) : Prog ε σ α := fun s => some (x, s)

/-! ## Running one step -/

@[simp] theorem run_pure (a : α) (s : σ) :
    (pure a : Prog ε σ α).run s = some (.ok a, s) := rfl

@[simp] theorem run_throw (e : ε) (s : σ) :
    (throw e : Prog ε σ α).run s = some (.error e, s) := rfl

@[simp] theorem run_get (s : σ) : (get : Prog ε σ σ).run s = some (.ok s, s) := rfl

@[simp] theorem run_modify (f : σ → σ) (s : σ) :
    (modify f : Prog ε σ PUnit).run s = some (.ok (), f s) := rfl

@[simp] theorem run_outOfFuel (s : σ) : (outOfFuel : Prog ε σ α).run s = none := rfl

@[simp] theorem run_lift (x : Except ε α) (s : σ) :
    (lift x : Prog ε σ α).run s = some (x, s) := rfl

theorem run_bind (p : Prog ε σ α) (f : α → Prog ε σ β) (s : σ) :
    (p >>= f).run s = (p.run s).bind (andThen f) := rfl

theorem run_bind_ok {p : Prog ε σ α} {f : α → Prog ε σ β} {s s' : σ} {a : α}
    (h : p.run s = some (.ok a, s')) : (p >>= f).run s = (f a).run s' := by
  rw [run_bind, h]; rfl

theorem run_bind_error {p : Prog ε σ α} {f : α → Prog ε σ β} {s s' : σ} {e : ε}
    (h : p.run s = some (.error e, s')) : (p >>= f).run s = some (.error e, s') := by
  rw [run_bind, h]; rfl

theorem run_tryCatch_ok {p : Prog ε σ α} {h : ε → Prog ε σ α} {s s' : σ} {a : α}
    (hp : p.run s = some (.ok a, s')) : (tryCatch p h).run s = some (.ok a, s') := by
  change (p.run s).bind (orCatch h) = _
  rw [hp]; rfl

theorem run_tryCatch_error {p : Prog ε σ α} {h : ε → Prog ε σ α} {s s' : σ} {e : ε}
    (hp : p.run s = some (.error e, s')) : (tryCatch p h).run s = (h e).run s' := by
  change (p.run s).bind (orCatch h) = _
  rw [hp]; rfl

/-- **A composite that ends normally has ended normally in both halves.** -/
theorem of_run_bind_ok {p : Prog ε σ α} {f : α → Prog ε σ β} {s s' : σ} {b : β}
    (h : (p >>= f).run s = some (.ok b, s')) :
    ∃ a t, p.run s = some (.ok a, t) ∧ (f a).run t = some (.ok b, s') := by
  rw [run_bind, Option.bind_eq_some_iff] at h
  obtain ⟨⟨_ | a, t⟩, hp, hf⟩ := h
  · simp [andThen] at hf
  · exact ⟨a, t, hp, hf⟩

/-- Composition is associative. -/
theorem bind_bind {γ : Type} (p : Prog ε σ α) (f : α → Prog ε σ β) (g : β → Prog ε σ γ) :
    (p >>= f) >>= g = p >>= fun a => f a >>= g := by
  funext s
  change ((p s).bind (andThen f)).bind (andThen g) = (p s).bind _
  rcases p s with _ | ⟨_ | a, t⟩
  · rfl
  · rfl
  · rfl

/-- Doing nothing afterwards. -/
theorem bind_skip (p : Prog ε σ PUnit) : (p >>= fun _ => pure ()) = p := by
  funext s
  change (p s).bind (andThen fun _ => pure ()) = p s
  rcases p s with _ | ⟨_ | a, t⟩
  · rfl
  · rfl
  · rfl

/-! ## Traversals -/

/-- **`for (c : cs) body c`.** -/
def forEach : List ι → (ι → Prog ε σ PUnit) → Prog ε σ PUnit
  | [], _ => pure ()
  | c :: cs, body => do
    body c
    forEach cs body

@[simp] theorem forEach_nil (body : ι → Prog ε σ PUnit) : forEach [] body = pure () := rfl

theorem forEach_cons (c : ι) (cs : List ι) (body : ι → Prog ε σ PUnit) :
    forEach (c :: cs) body = body c >>= fun _ => forEach cs body := rfl

/-- A traversal whose every body is a plain update of the state folds the updates. -/
theorem run_forEach_ok {body : ι → Prog ε σ PUnit} {upd : σ → ι → σ} :
    ∀ (cs : List ι) (s : σ), (∀ c ∈ cs, ∀ t, (body c).run t = some (.ok (), upd t c)) →
      (forEach cs body).run s = some (.ok (), cs.foldl upd s)
  | [], s, _ => rfl
  | c :: cs, s, h => by
      rw [forEach_cons, run_bind_ok (h c List.mem_cons_self s), List.foldl_cons]
      exact run_forEach_ok cs (upd s c) fun d hd => h d (List.mem_cons_of_mem c hd)

/-- A traversal splits at any point, an exception in the first part ending both. -/
theorem run_forEach_append {body : ι → Prog ε σ PUnit} :
    ∀ (cs ds : List ι) (s : σ),
      (forEach (cs ++ ds) body).run s = ((forEach cs body >>= fun _ => forEach ds body).run s)
  | [], ds, s => rfl
  | c :: cs, ds, s => by
      rw [List.cons_append, forEach_cons, forEach_cons]
      simp only [run_bind]
      cases hb : (body c).run s with
      | none => rfl
      | some r =>
        obtain ⟨_ | u, t⟩ := r
        · rfl
        · exact (run_forEach_append cs ds t).trans (run_bind _ _ _)

theorem forEach_append (cs ds : List ι) (body : ι → Prog ε σ PUnit) :
    forEach (cs ++ ds) body = forEach cs body >>= fun _ => forEach ds body :=
  funext fun s => run_forEach_append cs ds s

theorem forEach_map {κ : Type} (f : κ → ι) (body : ι → Prog ε σ PUnit) :
    ∀ cs : List κ, forEach (cs.map f) body = forEach cs fun c => body (f c)
  | [] => rfl
  | c :: cs => congrArg (body (f c) >>= ·) (funext fun _ => forEach_map f body cs)

/-- **A traversal in a traversal is one traversal.** -/
theorem forEach_flatMap {κ : Type} (f : κ → List ι) (body : ι → Prog ε σ PUnit) :
    ∀ cs : List κ, forEach (cs.flatMap f) body = forEach cs fun c => forEach (f c) body
  | [] => rfl
  | c :: cs => by
      rw [List.flatMap_cons, forEach_append, forEach_cons, forEach_flatMap f body cs]

/-- **A traversal stops at its first exception**: nothing after the element that throws runs. -/
theorem run_forEach_throws {body : ι → Prog ε σ PUnit} {upd : σ → ι → σ} {cs ds : List ι} {c : ι}
    {s s' : σ} {e : ε} (hcs : ∀ d ∈ cs, ∀ t, (body d).run t = some (.ok (), upd t d))
    (hc : (body c).run (cs.foldl upd s) = some (.error e, s')) :
    (forEach (cs ++ c :: ds) body).run s = some (.error e, s') := by
  rw [run_forEach_append, run_bind_ok (run_forEach_ok cs s hcs), forEach_cons]
  exact run_bind_error hc

/-- What every body preserves, a traversal preserves, however it ends. -/
theorem forEach_preserves {body : ι → Prog ε σ PUnit} {I : σ → Prop}
    (hbody : ∀ c s r t, I s → (body c).run s = some (r, t) → I t) :
    ∀ (cs : List ι) (s : σ) (r : Except ε PUnit) (t : σ), I s →
      (forEach cs body).run s = some (r, t) → I t
  | [], s, r, t, hs, h => by
      obtain ⟨-, rfl⟩ : (.ok () = r) ∧ s = t := by simpa using h
      exact hs
  | c :: cs, s, r, t, hs, h => by
      rw [forEach_cons, run_bind, Option.bind_eq_some_iff] at h
      obtain ⟨⟨e | u, t'⟩, hc, hrest⟩ := h
      · obtain ⟨-, rfl⟩ : (.error e = r) ∧ t' = t := by simpa [andThen] using hrest
        exact hbody c s _ _ hs hc
      · exact forEach_preserves hbody cs t' r t (hbody c s _ _ hs hc) hrest

/-- **A list with a bad element splits at the first one.** -/
theorem exists_first {bad : ι → Prop} [DecidablePred bad] {cs : List ι} (h : ∃ c ∈ cs, bad c) :
    ∃ pre c post, cs = pre ++ c :: post ∧ bad c ∧ ∀ d ∈ pre, ¬ bad d := by
  have hsome : (cs.find? fun c => bad c).isSome := by
    rw [List.find?_isSome]
    simpa using h
  obtain ⟨c, hc⟩ := Option.isSome_iff_exists.mp hsome
  obtain ⟨hbad, pre, post, hsplit, hpre⟩ := List.find?_eq_some_iff_append.mp hc
  exact ⟨pre, c, post, hsplit, of_decide_eq_true hbad, fun d hd => by simpa using hpre d hd⟩

/-! ## How a computation ends -/

/-- **It returns**, whatever state it starts in. -/
def Returns (p : Prog ε σ α) : Prop := ∀ s, ∃ a t, p.run s = some (.ok a, t)

/-- **It ends in an exception of `F`**, whatever state it starts in. -/
def Raises (F : ε → Prop) (p : Prog ε σ α) : Prop :=
  ∀ s, ∃ e t, p.run s = some (.error e, t) ∧ F e

section Ends

variable {F G : ε → Prop} {p : Prog ε σ α} {f : α → Prog ε σ β} {h : ε → Prog ε σ α}

theorem returns_modify (f : σ → σ) : Returns (modify f : Prog ε σ PUnit) := fun s =>
  ⟨(), f s, rfl⟩

theorem Returns.bind (hp : Returns p) (hf : ∀ a, Returns (f a)) : Returns (p >>= f) := fun s => by
  obtain ⟨a, t, hrun⟩ := hp s
  rw [run_bind_ok hrun]
  exact hf a t

theorem Raises.bind (hp : Raises F p) : Raises F (p >>= f) := fun s => by
  obtain ⟨e, t, hrun, he⟩ := hp s
  exact ⟨e, t, run_bind_error hrun, he⟩

/-- What follows a computation that returns decides how both end. -/
theorem Returns.bind_raises (hp : Returns p) (hf : ∀ a, Raises F (f a)) : Raises F (p >>= f) :=
  fun s => by
    obtain ⟨a, t, hrun⟩ := hp s
    rw [run_bind_ok hrun]
    exact hf a t

/-- A handler is not run where nothing is thrown. -/
theorem Returns.tryCatch (hp : Returns p) : Returns (tryCatch p h) := fun s => by
  obtain ⟨a, t, hrun⟩ := hp s
  exact ⟨a, t, run_tryCatch_ok hrun⟩

/-- **What a handler throws is thrown instead.** -/
theorem Raises.tryCatch (hp : Raises F p) (hh : ∀ e, F e → Raises G (h e)) :
    Raises G (tryCatch p h) := fun s => by
  obtain ⟨e, t, hrun, he⟩ := hp s
  rw [run_tryCatch_error hrun]
  exact hh e he t

theorem returns_forEach {body : ι → Prog ε σ PUnit} :
    ∀ {cs : List ι}, (∀ c ∈ cs, Returns (body c)) → Returns (forEach cs body)
  | [], _ => fun s => ⟨(), s, rfl⟩
  | c :: _, hbody => (hbody c List.mem_cons_self).bind fun _ =>
      returns_forEach fun d hd => hbody d (List.mem_cons_of_mem c hd)

/-- **A traversal ends in an exception if one of its bodies does**, where each of them returns or
does. -/
theorem raises_forEach {body : ι → Prog ε σ PUnit} :
    ∀ {cs : List ι}, (∀ c ∈ cs, Returns (body c) ∨ Raises F (body c)) →
      (∃ c ∈ cs, Raises F (body c)) → Raises F (forEach cs body)
  | [], _, ⟨_, hc, _⟩ => absurd hc List.not_mem_nil
  | c :: cs, hbody, hraises => by
      rcases hbody c List.mem_cons_self with hreturns | hraise
      · obtain ⟨d, hd, hthrow⟩ := hraises
        rcases List.mem_cons.mp hd with rfl | hd
        · exact hthrow.bind
        · exact hreturns.bind_raises fun _ =>
            raises_forEach (fun e he => hbody e (List.mem_cons_of_mem c he)) ⟨d, hd, hthrow⟩
      · exact hraise.bind

end Ends

/-! ## `for` loops -/

/-- **`for (c = …; test c; c = next c) body c`**, unrolled at most `fuel` times. -/
def forLoop (test : ι → Bool) (next : ι → Prog ε σ ι) (body : ι → Prog ε σ PUnit) :
    ℕ → ι → Prog ε σ PUnit
  | 0, _ => outOfFuel
  | fuel + 1, c =>
    if test c then do
      body c
      let c' ← next c
      forLoop test next body fuel c'
    else pure ()

/-- The counter runs through `cs` from `c` on, and the test fails after it. -/
inductive Counts (test : ι → Bool) (next : ι → Prog ε σ ι) : ι → List ι → Prop
  | stop {c : ι} : test c = false → Counts test next c []
  | step {c c' : ι} {cs : List ι} : test c = true → next c = pure c' → Counts test next c' cs →
      Counts test next c (c :: cs)

/-- **A loop whose counter runs through `cs` is the traversal of `cs`.** -/
theorem forLoop_eq_forEach {test : ι → Bool} {next : ι → Prog ε σ ι} {body : ι → Prog ε σ PUnit}
    {c : ι} {cs : List ι} (h : Counts test next c cs) :
    ∀ {fuel : ℕ}, cs.length < fuel → forLoop test next body fuel c = forEach cs body := by
  induction h with
  | stop htest =>
    rintro (_ | fuel) hlt
    · exact absurd hlt (Nat.not_lt_zero _)
    · simp [forLoop, htest]
  | @step c c' cs htest hnext _ ih =>
    rintro (_ | fuel) hlt
    · exact absurd hlt (Nat.not_lt_zero _)
    · have hlen : cs.length < fuel := by simpa using hlt
      have hrest : forLoop test next body fuel c' = forEach cs body := ih hlen
      rw [forLoop, if_pos htest, forEach_cons, ← hrest]
      exact congrArg (body c >>= ·) (funext fun _ => by rw [hnext]; rfl)

/-- **A loop that returns normally has failed its test** — at a counter with every property the
step of the counter keeps. -/
theorem exists_exit_of_forLoop_ok {test : ι → Bool} {next : ι → Prog ε σ ι}
    {body : ι → Prog ε σ PUnit} {I : ι → Prop}
    (hnext : ∀ c c' s t, I c → test c = true → (next c).run s = some (.ok c', t) → I c') :
    ∀ (fuel : ℕ) (c : ι) (s s' : σ), I c →
      (forLoop test next body fuel c).run s = some (.ok (), s') → ∃ d, I d ∧ test d = false
  | 0, _, _, _, _, h => by simp [forLoop] at h
  | fuel + 1, c, s, s', hc, h => by
      rw [forLoop] at h
      by_cases ht : test c = true
      · rw [if_pos ht] at h
        obtain ⟨_, t, -, h⟩ := of_run_bind_ok h
        obtain ⟨c', t', hstep, h⟩ := of_run_bind_ok h
        exact exists_exit_of_forLoop_ok hnext fuel c' t' s' (hnext c c' t t' hc ht hstep) h
      · exact ⟨c, hc, by simpa using ht⟩

/-- What the body and the step of the counter preserve, the loop preserves, however it ends. -/
theorem forLoop_preserves {test : ι → Bool} {next : ι → Prog ε σ ι}
    {body : ι → Prog ε σ PUnit} {I : σ → Prop}
    (hbody : ∀ c s r t, I s → (body c).run s = some (r, t) → I t)
    (hnext : ∀ c s r t, I s → (next c).run s = some (r, t) → I t) :
    ∀ (fuel : ℕ) (c : ι) (s : σ) (r : Except ε PUnit) (t : σ), I s →
      (forLoop test next body fuel c).run s = some (r, t) → I t
  | 0, _, _, _, _, _, h => by simp [forLoop] at h
  | fuel + 1, c, s, r, t, hs, h => by
      rw [forLoop] at h
      by_cases ht : test c = true
      · rw [if_pos ht, run_bind, Option.bind_eq_some_iff] at h
        obtain ⟨⟨e | u, t₁⟩, hc, h⟩ := h
        · obtain ⟨-, rfl⟩ : (.error e = r) ∧ t₁ = t := by simpa [andThen] using h
          exact hbody c s _ _ hs hc
        change (next c >>= _).run t₁ = _ at h
        rw [run_bind, Option.bind_eq_some_iff] at h
        obtain ⟨⟨e | c', t₂⟩, hn, h⟩ := h
        · obtain ⟨-, rfl⟩ : (.error e = r) ∧ t₂ = t := by simpa [andThen] using h
          exact hnext c t₁ _ _ (hbody c s _ _ hs hc) hn
        · exact forLoop_preserves hbody hnext fuel c' t₂ r t
            (hnext c t₁ _ _ (hbody c s _ _ hs hc) hn) h
      · rw [if_neg ht] at h
        obtain ⟨-, rfl⟩ : (.ok () = r) ∧ s = t := by simpa using h
        exact hs

/-! ## More fuel -/

/-- **Wherever `p` ends, `q` ends in the same way.** -/
def Le (p q : Prog ε σ α) : Prop := ∀ s r, p.run s = some r → q.run s = some r

namespace Le

theorem refl (p : Prog ε σ α) : Le p p := fun _ _ h => h

theorem bind {p q : Prog ε σ α} {f g : α → Prog ε σ β} (hp : Le p q) (hf : ∀ a, Le (f a) (g a)) :
    Le (p >>= f) (q >>= g) := by
  intro s r h
  obtain ⟨⟨e | a, t⟩, hx, hrest⟩ := Option.bind_eq_some_iff.mp h
  · exact Option.bind_eq_some_iff.mpr ⟨_, hp s _ hx, hrest⟩
  · exact Option.bind_eq_some_iff.mpr ⟨_, hp s _ hx, hf a t r hrest⟩

/-- **A loop with more fuel ends wherever it ended.** -/
theorem forLoop {test : ι → Bool} {next : ι → Prog ε σ ι} {body body' : ι → Prog ε σ PUnit}
    (hbody : ∀ c, Le (body c) (body' c)) :
    ∀ {fuel fuel' : ℕ} (_ : fuel ≤ fuel') (c : ι),
      Le (forLoop test next body fuel c) (forLoop test next body' fuel' c)
  | 0, _, _, c => fun s r h => by simp [Prog.forLoop] at h
  | fuel + 1, fuel' + 1, hle, c => by
      rw [Prog.forLoop, Prog.forLoop]
      split
      · exact (hbody c).bind fun _ =>
          (Le.refl (next c)).bind fun c' => forLoop hbody (Nat.le_of_succ_le_succ hle) c'
      · exact Le.refl _

end Le

end Prog

end ChiNettest
