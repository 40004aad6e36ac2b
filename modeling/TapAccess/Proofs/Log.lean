import TapAccess.Proofs.Action

/-!
# What actions log

An action only ever adds to the log. `Logs` says what it adds when it starts from a given state, whatever has been
logged before. For a sequence the events of its steps follow one another: what the steps yield (`Yields`) says from
where the next one starts, and how far a sequence gets that fails.
-/

namespace TapAccess.Action

variable {ε δ σ τ α β : Type}

/-- The action adds the events to the log. -/
def Logs (a : Action ε σ α) (h : Hosted σ) (events : List Event) : Prop :=
  (a.outcome h).2.log = h.log ++ events

variable {h : Hosted σ} {own : σ} {random : RandomSource} {events more : List Event}

/-! ### Single steps -/

theorem logs_pure (a : α) : Logs (pure a : Action ε σ α) h [] := (List.append_nil _).symm

theorem logs_throw (e : ε) : Logs (throw e : Action ε σ α) h [] := (List.append_nil _).symm

theorem logs_own : Logs (Action.own : Action ε σ σ) h [] := (List.append_nil _).symm

theorem logs_record (event : Event) : Logs (record event : Action ε σ Unit) h [event] := rfl

theorem logs_update (f : σ → σ) : Logs (update f : Action ε σ Unit) h [] := (List.append_nil _).symm

theorem logs_draw (f : RandomSource → α × RandomSource) : Logs (draw f : Action ε σ α) h [] :=
  (List.append_nil _).symm

theorem logs_ofExcept (r : Except ε α) : Logs (ofExcept r : Action ε σ α) h [] := by
  cases r with
  | ok a => exact logs_pure a
  | error e => exact logs_throw e

/-! ### Sequences -/

theorem logs_bind {x : Action ε σ α} {f : α → Action ε σ β} {a : α} (hx : Yields x h (.ok a) own random)
    (hevents : Logs x h events) (hf : ∀ log, Logs (f a) ⟨own, random, log⟩ more) :
    Logs (x >>= f) h (events ++ more) := by
  obtain ⟨log, hrun⟩ := hx.run_ok
  have hlog : log = h.log ++ events := by rwa [Logs, outcome_ok hrun] at hevents
  rw [Logs, outcome_congr (bind_ok hrun), hf log, hlog, List.append_assoc]

theorem logs_bind_quiet {x : Action ε σ α} {f : α → Action ε σ β} {a : α} (hx : Yields x h (.ok a) own random)
    (hquiet : Logs x h []) (hf : ∀ log, Logs (f a) ⟨own, random, log⟩ events) : Logs (x >>= f) h events :=
  logs_bind hx hquiet hf

theorem logs_bind_one {x : Action ε σ α} {f : α → Action ε σ β} {a : α} {event : Event}
    (hx : Yields x h (.ok a) own random) (hevent : Logs x h [event])
    (hf : ∀ log, Logs (f a) ⟨own, random, log⟩ events) : Logs (x >>= f) h (event :: events) :=
  logs_bind hx hevent hf

theorem logs_bind_record {event : Event} {f : Unit → Action ε σ β}
    (hf : ∀ log, Logs (f ()) ⟨h.own, h.random, log⟩ events) : Logs (record event >>= f) h (event :: events) :=
  logs_bind_one (yields_record event) (logs_record event) hf

theorem logs_bind_own {f : σ → Action ε σ β} (hf : ∀ log, Logs (f h.own) ⟨h.own, h.random, log⟩ events) :
    Logs (Action.own >>= f) h events :=
  logs_bind_quiet yields_own logs_own hf

/-- What logs nothing may follow a step or not be reached after it. -/
theorem logs_bind_last {x : Action ε σ α} {f : α → Action ε σ β} (hevents : Logs x h events)
    (hf : ∀ a h', Logs (f a) h' []) : Logs (x >>= f) h events := by
  cases hrun : x h with
  | ok a h' =>
    rw [Logs, outcome_ok hrun] at hevents
    rw [Logs, outcome_congr (bind_ok hrun), hf a h', List.append_nil, hevents]
  | error e h' =>
    rw [Logs, outcome_error hrun] at hevents
    rw [Logs, outcome_error (bind_error hrun), hevents]

theorem logs_bind_error {x : Action ε σ α} {f : α → Action ε σ β} {e : ε}
    (hx : Yields x h (.error e) own random) (hevents : Logs x h events) : Logs (x >>= f) h events := by
  obtain ⟨log, hrun⟩ := hx.run_error
  rw [Logs, outcome_error hrun] at hevents
  rw [Logs, outcome_error (bind_error hrun), hevents]

/-! ### Actions within actions -/

theorem logs_within {part : σ → τ} {replace : τ → σ → σ} {a : Action ε τ α}
    (ha : Logs a ⟨part h.own, h.random, h.log⟩ events) : Logs (a.within part replace) h events := by
  unfold Logs outcome within at *
  cases hrun : a ⟨part h.own, h.random, h.log⟩ with
  | ok v t => rwa [hrun] at ha
  | error e t => rwa [hrun] at ha

theorem logs_attempt {a : Action ε σ α} (ha : Logs a h events) :
    Logs (a.attempt : Action δ σ (Except ε α)) h events := by
  unfold Logs outcome attempt at *
  cases hrun : a h with
  | ok v h' => rwa [hrun] at ha
  | error e h' => rwa [hrun] at ha

theorem logs_mapError {a : Action ε σ α} {f : ε → δ} (ha : Logs a h events) : Logs (a.mapError f) h events := by
  unfold Logs outcome mapError at *
  cases hrun : a h with
  | ok v h' => rwa [hrun] at ha
  | error e h' => rwa [hrun] at ha

end TapAccess.Action
