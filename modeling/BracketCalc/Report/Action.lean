import BracketCalc.Report.Reporter
/-!
# Work that reports

An action works on a state, prints, and may be stopped.  Whether it is stopped
or not, it leaves a reporter and a state, so that work can go on behind it.
-/

namespace BracketCalc

/-- What an action leaves: the text it printed, its result or the reason it stopped, and the
reporter and the state after it. -/
structure Step (σ α : Type) where
  printed : Text
  ended : Except Stop α
  reporter : Reporter
  state : σ

/-- The step with a text printed before it. -/
def Step.after {σ α : Type} (step : Step σ α) (printed : Text) : Step σ α :=
  { step with printed := printed ++ step.printed }

/-- Work on a state of type `σ`. -/
def Action (σ α : Type) : Type := Reporter → σ → Step σ α

/-- The step, and the next action behind it unless it was stopped. -/
def Step.andThen {σ α β : Type} (step : Step σ α) (next : α → Action σ β) : Step σ β :=
  match step.ended with
  | .error reason => ⟨step.printed, .error reason, step.reporter, step.state⟩
  | .ok a => (next a step.reporter step.state).after step.printed

namespace Action

variable {σ τ α β γ : Type}

protected def pure (a : α) : Action σ α := fun reporter state => ⟨[], .ok a, reporter, state⟩

protected def bind (act : Action σ α) (next : α → Action σ β) : Action σ β :=
  fun reporter state => (act reporter state).andThen next

instance : Monad (Action σ) where
  pure := Action.pure
  bind := Action.bind

def print (text : Text) : Action σ Unit := fun reporter state => ⟨text, .ok (), reporter, state⟩

def stop (reason : Stop) : Action σ α := fun reporter state => ⟨[], .error reason, reporter, state⟩

def get : Action σ σ := fun reporter state => ⟨[], .ok state, reporter, state⟩

def modify (f : σ → σ) : Action σ Unit := fun reporter state => ⟨[], .ok (), reporter, f state⟩

def modifyReporter (f : Reporter → Reporter) : Action σ Unit :=
  fun reporter state => ⟨[], .ok (), f reporter, state⟩

/-- Starts to work on a file. -/
def enterFile (path : Text) : Action σ Unit :=
  modifyReporter fun r => { r with trace := r.trace.set path none }

/-- Starts to work on a passage of a file. -/
def enterPassage (path : Text) (passage : Passage) : Action σ Unit :=
  modifyReporter fun r => { r with trace := r.trace.set path (some passage) }

/-- Finishes the work on a passage of a file. -/
def leavePassage (path : Text) : Action σ Unit := enterFile path

/-- An action on a part of the state. -/
def onPart (part : σ → τ) (replace : σ → τ → σ) (act : Action τ α) : Action σ α :=
  fun reporter state =>
    let step := act reporter (part state)
    ⟨step.printed, step.ended, step.reporter, replace state step.state⟩

/-- An action on a state of its own, which it returns with its result. -/
def onOwn (own : τ) (act : Action τ α) : Action σ (α × τ) :=
  fun reporter state =>
    let step := act reporter own
    ⟨step.printed, step.ended.map (·, step.state), step.reporter, state⟩

@[simp] theorem after_nil (step : Step σ α) : step.after [] = step := rfl

@[simp] theorem after_after (step : Step σ α) (s t : Text) :
    (step.after s).after t = step.after (t ++ s) := by
  simp [Step.after]

theorem bind_apply (act : Action σ α) (next : α → Action σ β) (reporter : Reporter) (state : σ) :
    (act >>= next) reporter state = (act reporter state).andThen next := rfl

theorem andThen_pure (step : Step σ α) : step.andThen Action.pure = step := by
  obtain ⟨printed, reason | a, reporter, state⟩ := step
  · rfl
  · simp [Step.andThen, Action.pure, Step.after]

theorem after_andThen (step : Step σ α) (text : Text) (next : α → Action σ β) :
    (step.after text).andThen next = (step.andThen next).after text := by
  obtain ⟨printed, reason | a, reporter, state⟩ := step
  · rfl
  · simp [Step.andThen, Step.after]

theorem andThen_andThen (step : Step σ α) (f : α → Action σ β) (g : β → Action σ γ) :
    (step.andThen f).andThen g = step.andThen fun a => (f a).bind g := by
  obtain ⟨printed, reason | a, reporter, state⟩ := step
  · rfl
  · exact after_andThen (f a reporter state) printed g

instance : LawfulMonad (Action σ) :=
  LawfulMonad.mk' (Action σ)
    (fun act => funext fun reporter => funext fun state => andThen_pure (act reporter state))
    (fun _ _ => rfl)
    (fun act f g => funext fun reporter => funext fun state =>
      andThen_andThen (act reporter state) f g)

/-! An action that starts with a single operation goes on where the operation leads. -/

theorem pure_apply (a : α) (reporter : Reporter) (state : σ) :
    (pure a : Action σ α) reporter state = ⟨[], .ok a, reporter, state⟩ := rfl

theorem get_bind_apply (next : σ → Action σ α) (reporter : Reporter) (state : σ) :
    (get >>= next) reporter state = next state reporter state := rfl

theorem modify_bind_apply (f : σ → σ) (next : Unit → Action σ α) (reporter : Reporter) (state : σ) :
    (modify f >>= next) reporter state = next () reporter (f state) := rfl

theorem modifyReporter_bind_apply (f : Reporter → Reporter) (next : Unit → Action σ α)
    (reporter : Reporter) (state : σ) :
    (modifyReporter f >>= next) reporter state = next () (f reporter) state := rfl

theorem print_bind_apply (text : Text) (next : Unit → Action σ α) (reporter : Reporter)
    (state : σ) :
    (print text >>= next) reporter state = (next () reporter state).after text := rfl

theorem stop_bind_apply (reason : Stop) (next : β → Action σ α) (reporter : Reporter) (state : σ) :
    (stop reason >>= next) reporter state = ⟨[], .error reason, reporter, state⟩ := rfl

end Action

end BracketCalc
