import CustomFunctions.Command.Outcome

/-!
# Messages

Messages change neither the files nor the ending of a command, and a command that stops or breaks off
leaves the files as they are.
-/

namespace CustomFunctions.Outcome

variable (o : Outcome) (ds : List Diagnostic) (message : String) (cause? : Option String)

@[simp] theorem say_workspace : (o.say message).workspace = o.workspace := rfl

@[simp] theorem say_ending : (o.say message).ending = o.ending := rfl

@[simp] theorem complain_workspace : (o.complain message).workspace = o.workspace := rfl

@[simp] theorem complain_ending : (o.complain message).ending = o.ending := rfl

@[simp] theorem refuse_workspace : (o.refuse message).workspace = o.workspace := rfl

@[simp] theorem refuse_ending : (o.refuse message).ending = .failure := rfl

@[simp] theorem stop_workspace : (o.stop message cause?).workspace = o.workspace := rfl

@[simp] theorem stop_ending : (o.stop message cause?).ending = .failure := rfl

/-- A failure other than an overflow stops a command. -/
theorem attempt_error {α : Type} {e : Failure} (h : e ≠ .overflow) :
    o.attempt (.error e : Except Failure α) = .error (o.stop e.message e.cause?) := by
  cases e with
  | overflow => exact absurd rfl h
  | _ => rfl

/-- Work that comes to no end leaves the files as they are. -/
theorem exists_attempt_error {α : Type} (e : Failure) :
    ∃ o', o.attempt (.error e : Except Failure α) = .error o' ∧ o'.workspace = o.workspace := by
  by_cases h : e = .overflow
  · obtain rfl := h
    exact ⟨_, rfl, rfl⟩
  · exact ⟨_, o.attempt_error h, rfl⟩

@[simp] theorem showDiagnostics_workspace : (o.showDiagnostics ds).workspace = o.workspace := by
  induction ds generalizing o with
  | nil => rfl
  | cons d ds ih => exact ih (o.showDiagnostic d)

@[simp] theorem showDiagnostics_ending : (o.showDiagnostics ds).ending = o.ending := by
  induction ds generalizing o with
  | nil => rfl
  | cons d ds ih => exact ih (o.showDiagnostic d)

end CustomFunctions.Outcome
