import TapAccess.Action
import TapAccess.Proofs.Except

/-!
# Running actions

How the outcome of a composed action follows from the outcomes of its parts. `bind_eq_ok_iff` takes a
successful run apart into its steps, and `bind_ok` and `bind_error` put one together. An action `Keeps` a part
of the state when that part is the same after it, whatever the outcome; what is built from actions that
keep a part keeps it. What an action `Yields` is its result, the state and the source of randomness that it
leaves, whatever it logs; the lemmas put what a sequence yields together from what its steps do.
-/

namespace TapAccess.Action

variable {ε δ σ τ α β γ : Type}

/-! ### Sequences -/

theorem bind_ok {x : Action ε σ α} {f : α → Action ε σ β} {h h₁ : Hosted σ} {a : α} (hx : x h = .ok a h₁) :
    (x >>= f) h = f a h₁ := by
  show EStateM.bind x f h = _
  rw [EStateM.bind, hx]

theorem bind_error {x : Action ε σ α} {f : α → Action ε σ β} {h h₁ : Hosted σ} {e : ε}
    (hx : x h = .error e h₁) : (x >>= f) h = .error e h₁ := by
  show EStateM.bind x f h = _
  rw [EStateM.bind, hx]

theorem bind_eq_ok_iff {x : Action ε σ α} {f : α → Action ε σ β} {h h' : Hosted σ} {b : β} :
    (x >>= f) h = .ok b h' ↔ ∃ a h₁, x h = .ok a h₁ ∧ f a h₁ = .ok b h' := by
  cases hx : x h with
  | ok a h₁ =>
    rw [bind_ok hx]
    constructor
    · exact fun hf => ⟨a, h₁, rfl, hf⟩
    · rintro ⟨a', h₁', heq, hf⟩
      cases heq
      exact hf
  | error e h₁ =>
    rw [bind_error hx]
    simp

theorem pure_eq_ok_iff {h h' : Hosted σ} {a b : α} :
    (pure a : Action ε σ α) h = .ok b h' ↔ b = a ∧ h' = h := by
  show EStateM.Result.ok a h = .ok b h' ↔ _
  rw [EStateM.Result.ok.injEq]
  exact and_congr eq_comm eq_comm

theorem throw_ne_ok {h h' : Hosted σ} {e : ε} {b : α} : (throw e : Action ε σ α) h ≠ .ok b h' := by
  show EStateM.Result.error e h ≠ .ok b h'
  simp

/-! ### Single steps -/

theorem own_eq (h : Hosted σ) : (own : Action ε σ σ) h = .ok h.own h := rfl

theorem debug_eq (text : String) (h : Hosted σ) :
    (debug text : Action ε σ Unit) h = .ok () { h with log := h.log ++ [⟨.debug, text⟩] } := rfl

theorem record_eq_ok_iff {event : Event} {h h' : Hosted σ} {u : Unit} :
    (record event : Action ε σ Unit) h = .ok u h' ↔ h' = { h with log := h.log ++ [event] } := by
  show EStateM.Result.ok () _ = .ok u h' ↔ _
  rw [EStateM.Result.ok.injEq]
  exact ⟨fun hr => hr.2.symm, fun hr => ⟨rfl, hr.symm⟩⟩

theorem own_eq_ok_iff {h h' : Hosted σ} {s : σ} :
    (own : Action ε σ σ) h = .ok s h' ↔ s = h.own ∧ h' = h := by
  show EStateM.Result.ok h.own h = .ok s h' ↔ _
  rw [EStateM.Result.ok.injEq]
  exact and_congr eq_comm eq_comm

theorem draw_eq_ok_iff {f : RandomSource → α × RandomSource} {h h' : Hosted σ} {a : α} :
    (draw f : Action ε σ α) h = .ok a h' ↔ a = (f h.random).1 ∧ h' = { h with random := (f h.random).2 } := by
  show EStateM.Result.ok (f h.random).1 { h with random := (f h.random).2 } = .ok a h' ↔ _
  rw [EStateM.Result.ok.injEq]
  exact and_congr eq_comm eq_comm

theorem ofExcept_eq_ok_iff {r : Except ε α} {h h' : Hosted σ} {a : α} :
    (ofExcept r : Action ε σ α) h = .ok a h' ↔ r = .ok a ∧ h' = h := by
  cases r with
  | ok b =>
    rw [ofExcept, pure_eq_ok_iff, Except.ok.injEq]
    exact and_congr eq_comm Iff.rfl
  | error e => simp [ofExcept, throw_ne_ok]

/-! ### Kept parts of the state -/

/-- Whatever the outcome of the action, what `part` shows of the state is the same after it. -/
def Keeps (part : σ → γ) (a : Action ε σ α) : Prop := ∀ h, part (a.outcome h).2.own = part h.own

variable {part : σ → γ}

theorem outcome_ok {a : Action ε σ α} {h h' : Hosted σ} {v : α} (ha : a h = .ok v h') :
    a.outcome h = (.ok v, h') := by
  rw [outcome, ha]

theorem outcome_error {a : Action ε σ α} {h h' : Hosted σ} {e : ε} (ha : a h = .error e h') :
    a.outcome h = (.error e, h') := by
  rw [outcome, ha]

theorem outcome_congr {a b : Action ε σ α} {h h' : Hosted σ} (hab : a h = b h') :
    a.outcome h = b.outcome h' := by
  rw [outcome, outcome, hab]

theorem eq_ok_of_outcome {a : Action ε σ α} {h h' : Hosted σ} {v : α} (hrun : a.outcome h = (.ok v, h')) :
    a h = .ok v h' := by
  cases ha : a h with
  | ok w h₁ =>
    rw [outcome_ok ha, Prod.mk.injEq, Except.ok.injEq] at hrun
    rw [hrun.1, hrun.2]
  | error e h₁ =>
    rw [outcome_error ha, Prod.mk.injEq] at hrun
    cases hrun.1

theorem eq_error_of_outcome {a : Action ε σ α} {h h' : Hosted σ} {e : ε} (hrun : a.outcome h = (.error e, h')) :
    a h = .error e h' := by
  cases ha : a h with
  | ok w h₁ =>
    rw [outcome_ok ha, Prod.mk.injEq] at hrun
    cases hrun.1
  | error e₁ h₁ =>
    rw [outcome_error ha, Prod.mk.injEq, Except.error.injEq] at hrun
    rw [hrun.1, hrun.2]

theorem outcome_fst_eq_ok_iff {a : Action ε σ α} {h : Hosted σ} {v : α} :
    (a.outcome h).1 = .ok v ↔ ∃ h', a h = .ok v h' := by
  cases ha : a h with
  | ok w h' => simp [outcome_ok ha]
  | error e h' => simp [outcome_error ha]

theorem Keeps.ok {a : Action ε σ α} (hk : Keeps part a) {h h' : Hosted σ} {v : α} (ha : a h = .ok v h') :
    part h'.own = part h.own := by
  simpa only [outcome_ok ha] using hk h

theorem keeps_pure (a : α) : Keeps part (pure a : Action ε σ α) := fun _ => rfl

theorem keeps_throw (e : ε) : Keeps part (throw e : Action ε σ α) := fun _ => rfl

theorem keeps_record (event : Event) : Keeps part (record event : Action ε σ Unit) := fun _ => rfl

theorem keeps_own : Keeps part (own : Action ε σ σ) := fun _ => rfl

theorem keeps_draw (f : RandomSource → α × RandomSource) : Keeps part (draw f : Action ε σ α) := fun _ => rfl

theorem keeps_ofExcept (r : Except ε α) : Keeps part (ofExcept r : Action ε σ α) := by
  cases r with
  | ok a => exact keeps_pure a
  | error e => exact keeps_throw e

theorem keeps_bind {x : Action ε σ α} {f : α → Action ε σ β} (hx : Keeps part x)
    (hf : ∀ a, Keeps part (f a)) : Keeps part (x >>= f) := by
  intro h
  cases hrun : x h with
  | ok a h₁ =>
    have hrest := hf a h₁
    rw [hx.ok hrun] at hrest
    rw [outcome, bind_ok hrun]
    exact hrest
  | error e h₁ =>
    rw [outcome_error (bind_error hrun)]
    simpa only [outcome_error hrun] using hx h

/-! ### What an action yields -/

/-- The action ends in `result` and leaves the state `own` and the source `random`, whatever it logs. -/
def Yields (a : Action ε σ α) (h : Hosted σ) (result : Except ε α) (own : σ) (random : RandomSource) : Prop :=
  ∃ log, a.outcome h = (result, ⟨own, random, log⟩)

section

variable {h : Hosted σ} {own own' : σ} {random random' : RandomSource}

theorem yields_pure (a : α) : Yields (pure a : Action ε σ α) h (.ok a) h.own h.random := ⟨h.log, rfl⟩

theorem yields_throw (e : ε) : Yields (throw e : Action ε σ α) h (.error e) h.own h.random := ⟨h.log, rfl⟩

theorem yields_own : Yields (Action.own : Action ε σ σ) h (.ok h.own) h.own h.random := ⟨h.log, rfl⟩

theorem yields_record (event : Event) : Yields (record event : Action ε σ Unit) h (.ok ()) h.own h.random :=
  ⟨_, rfl⟩

theorem yields_update (f : σ → σ) : Yields (update f : Action ε σ Unit) h (.ok ()) (f h.own) h.random :=
  ⟨h.log, rfl⟩

theorem yields_draw (f : RandomSource → α × RandomSource) :
    Yields (draw f : Action ε σ α) h (.ok (f h.random).1) h.own (f h.random).2 := ⟨h.log, rfl⟩

theorem yields_ofExcept (r : Except ε α) : Yields (ofExcept r : Action ε σ α) h r h.own h.random := by
  cases r with
  | ok a => exact yields_pure a
  | error e => exact yields_throw e

theorem Yields.run_ok {a : Action ε σ α} {v : α} (ha : Yields a h (.ok v) own random) :
    ∃ log, a h = .ok v ⟨own, random, log⟩ := by
  obtain ⟨log, hlog⟩ := ha
  exact ⟨log, eq_ok_of_outcome hlog⟩

theorem Yields.run_error {a : Action ε σ α} {e : ε} (ha : Yields a h (.error e) own random) :
    ∃ log, a h = .error e ⟨own, random, log⟩ := by
  obtain ⟨log, hlog⟩ := ha
  exact ⟨log, eq_error_of_outcome hlog⟩

theorem yields_bind_ok {x : Action ε σ α} {f : α → Action ε σ β} {a : α} {result : Except ε β}
    (hx : Yields x h (.ok a) own random) (hf : ∀ log, Yields (f a) ⟨own, random, log⟩ result own' random') :
    Yields (x >>= f) h result own' random' := by
  obtain ⟨log, hrun⟩ := hx.run_ok
  obtain ⟨log', hlog'⟩ := hf log
  exact ⟨log', (outcome_congr (bind_ok hrun)).trans hlog'⟩

theorem yields_bind_error {x : Action ε σ α} {f : α → Action ε σ β} {e : ε}
    (hx : Yields x h (.error e) own random) : Yields (x >>= f) h (.error e) own random := by
  obtain ⟨log, hrun⟩ := hx.run_error
  exact ⟨log, outcome_error (bind_error hrun)⟩

theorem yields_within {part : σ → τ} {replace : τ → σ → σ} {a : Action ε τ α} {result : Except ε α} {t : τ}
    (ha : ∀ log, Yields a ⟨part h.own, h.random, log⟩ result t random) :
    Yields (a.within part replace) h result (replace t h.own) random := by
  cases result with
  | ok v =>
    obtain ⟨log, hrun⟩ := (ha h.log).run_ok
    exact ⟨log, by rw [outcome, within, hrun]⟩
  | error e =>
    obtain ⟨log, hrun⟩ := (ha h.log).run_error
    exact ⟨log, by rw [outcome, within, hrun]⟩

theorem yields_attempt {a : Action ε σ α} {result : Except ε α} (ha : Yields a h result own random) :
    Yields (a.attempt : Action δ σ (Except ε α)) h (.ok result) own random := by
  cases result with
  | ok v =>
    obtain ⟨log, hrun⟩ := ha.run_ok
    exact ⟨log, by rw [outcome, attempt, hrun]⟩
  | error e =>
    obtain ⟨log, hrun⟩ := ha.run_error
    exact ⟨log, by rw [outcome, attempt, hrun]⟩

theorem yields_mapError {a : Action ε σ α} {f : ε → δ} {result : Except ε α}
    (ha : Yields a h result own random) : Yields (a.mapError f) h (result.mapError f) own random := by
  cases result with
  | ok v =>
    obtain ⟨log, hrun⟩ := ha.run_ok
    exact ⟨log, by rw [outcome, Action.mapError, hrun]; rfl⟩
  | error e =>
    obtain ⟨log, hrun⟩ := ha.run_error
    exact ⟨log, by rw [outcome, Action.mapError, hrun]; rfl⟩

end

end TapAccess.Action
