namespace Stacklang

abbrev Fallible (ε σ α : Type) := ExceptT ε (StateM σ) α

namespace Fallible

variable {ε σ α β : Type}

theorem run_bind (step : Fallible ε σ α) (next : α → Fallible ε σ β) (state : σ) :
    (step >>= next).run state =
      match step.run state with
      | (.ok result, later) => (next result).run later
      | (.error error, later) => (.error error, later) := by
  simp only [bind, ExceptT.bind, ExceptT.bindCont, ExceptT.mk, ExceptT.run, StateT.bind]
  cases step state with
  | mk outcome later => cases outcome <;> rfl

theorem run_pure (value : α) (state : σ) :
    (pure value : Fallible ε σ α).run state = (.ok value, state) := rfl

theorem run_get (state : σ) : (get : Fallible ε σ σ).run state = (.ok state, state) := rfl

theorem run_set (state later : σ) :
    (set later : Fallible ε σ PUnit).run state = (.ok ⟨⟩, later) := rfl

theorem run_modify (change : σ → σ) (state : σ) :
    (modify change : Fallible ε σ PUnit).run state = (.ok ⟨⟩, change state) := rfl

theorem run_map (f : α → β) (step : Fallible ε σ α) (state : σ) :
    (f <$> step).run state =
      match step.run state with
      | (.ok result, later) => (.ok (f result), later)
      | (.error error, later) => (.error error, later) := by
  rw [← bind_pure_comp, run_bind]
  rfl

theorem run_discard (step : Fallible ε σ α) (state : σ) :
    (discard step).run state =
      match step.run state with
      | (.ok _, later) => (.ok ⟨⟩, later)
      | (.error error, later) => (.error error, later) :=
  run_map _ _ _

theorem run_tryCatch (step : Fallible ε σ α) (handle : ε → Fallible ε σ α) (state : σ) :
    (tryCatch step handle).run state =
      match step.run state with
      | (.ok result, later) => (.ok result, later)
      | (.error error, later) => (handle error).run later := by
  simp only [tryCatch, tryCatchThe, MonadExceptOf.tryCatch, ExceptT.tryCatch, ExceptT.mk, ExceptT.run,
    bind, StateT.bind]
  cases step state with
  | mk outcome later => cases outcome <;> rfl

theorem bind_succeeds {step : Fallible ε σ α} {next : α → Fallible ε σ β} {state last : σ}
    {result : β} :
    (step >>= next).run state = (.ok result, last) ↔
      ∃ first later, step.run state = (.ok first, later) ∧
        (next first).run later = (.ok result, last) := by
  rw [run_bind]
  cases hstep : step.run state with
  | mk outcome later =>
      cases outcome with
      | ok first =>
          constructor
          · intro hnext
            exact ⟨first, later, rfl, hnext⟩
          · rintro ⟨_, _, hfirst, hnext⟩
            cases hfirst
            exact hnext
      | error error =>
          constructor
          · intro hfails
            cases hfails
          · rintro ⟨_, _, hfirst, _⟩
            cases hfirst

theorem discard_succeeds {step : Fallible ε σ α} {state last : σ} :
    (discard step).run state = (.ok ⟨⟩, last) ↔ ∃ result, step.run state = (.ok result, last) := by
  rw [run_discard]
  cases hstep : step.run state with
  | mk outcome later =>
      cases outcome with
      | ok first =>
          constructor
          · intro hlast
            cases hlast
            exact ⟨first, rfl⟩
          · rintro ⟨_, hresult⟩
            cases hresult
            rfl
      | error error =>
          constructor
          · intro hfails
            cases hfails
          · rintro ⟨_, hresult⟩
            cases hresult

/-- From the given state, the step succeeds with a result and a state that are `good`, or stops with
an error and a state that are `bad`. -/
def Meets (step : Fallible ε σ α) (state : σ) (good : α → σ → Prop) (bad : ε → σ → Prop) : Prop :=
  match step.run state with
  | (.ok result, later) => good result later
  | (.error error, later) => bad error later

section Meets

variable {step : Fallible ε σ α} {next : α → Fallible ε σ β} {state : σ}
  {good : α → σ → Prop} {bad : ε → σ → Prop} {done : β → σ → Prop}

theorem Meets.bind (hstep : Meets step state (fun result later => Meets (next result) later done bad)
    bad) : Meets (step >>= next) state done bad := by
  unfold Meets at hstep ⊢
  rw [run_bind]
  cases hrun : step.run state with
  | mk outcome later =>
      rw [hrun] at hstep
      cases outcome with
      | ok result => exact hstep
      | error error => exact hstep

theorem Meets.mono {good' : α → σ → Prop} {bad' : ε → σ → Prop} (hstep : Meets step state good bad)
    (hgood : ∀ result later, good result later → good' result later)
    (hbad : ∀ error later, bad error later → bad' error later) :
    Meets step state good' bad' := by
  unfold Meets at hstep ⊢
  cases hrun : step.run state with
  | mk outcome later =>
      rw [hrun] at hstep
      cases outcome with
      | ok result => exact hgood result later hstep
      | error error => exact hbad error later hstep

theorem Meets.and {good' : α → σ → Prop} {bad' : ε → σ → Prop} (hstep : Meets step state good bad)
    (hstep' : Meets step state good' bad') :
    Meets step state (fun result later => good result later ∧ good' result later)
      (fun error later => bad error later ∧ bad' error later) := by
  unfold Meets at hstep hstep' ⊢
  cases hrun : step.run state with
  | mk outcome later =>
      rw [hrun] at hstep hstep'
      cases outcome with
      | ok result => exact ⟨hstep, hstep'⟩
      | error error => exact ⟨hstep, hstep'⟩

theorem Meets.andThen {bad' : ε → σ → Prop} (hstep : Meets step state good bad)
    (hnext : ∀ result later, good result later → Meets (next result) later done bad')
    (hbad : ∀ error later, bad error later → bad' error later) :
    Meets (step >>= next) state done bad' :=
  .bind (hstep.mono hnext hbad)

theorem Meets.discard {good : Unit → σ → Prop}
    (hstep : Meets step state (fun _ later => good () later) bad) :
    Meets (Functor.discard step) state good bad := by
  unfold Meets at hstep ⊢
  rw [run_discard]
  cases hrun : step.run state with
  | mk outcome later =>
      rw [hrun] at hstep
      cases outcome with
      | ok result => exact hstep
      | error error => exact hstep

end Meets

end Fallible

end Stacklang
