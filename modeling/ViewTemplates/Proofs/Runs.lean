/-!
Runs of work that has a state and may fail: what a sequence of two steps does, by the outcome of the
first.
-/

namespace ViewTemplates

section
variable {first : EStateM ε σ α} {second : α → EStateM ε σ β} {state next : σ}

theorem bind_of_ok {value : α} (run : first state = .ok value next) :
    (first >>= second) state = second value next := by
  change EStateM.bind first second state = _
  rw [EStateM.bind, run]

theorem bind_of_error {error : ε} (run : first state = .error error next) :
    (first >>= second) state = .error error next := by
  change EStateM.bind first second state = _
  rw [EStateM.bind, run]

theorem bind_eq_ok {result : β} {last : σ} (run : (first >>= second) state = .ok result last) :
    ∃ value middle, first state = .ok value middle ∧ second value middle = .ok result last := by
  change EStateM.bind first second state = _ at run
  rw [EStateM.bind] at run
  split at run
  next value middle begun => exact ⟨value, middle, begun, run⟩
  next => cases run

theorem bind_eq_error {error : ε} {last : σ}
    (run : (first >>= second) state = .error error last) :
    first state = .error error last ∨
      ∃ value middle, first state = .ok value middle ∧ second value middle = .error error last := by
  change EStateM.bind first second state = _ at run
  rw [EStateM.bind] at run
  split at run
  next value middle begun => exact .inr ⟨value, middle, begun, run⟩
  next begun =>
    cases run
    exact .inl begun

theorem get_bind (following : σ → EStateM ε σ β) (state : σ) :
    (get >>= following) state = following state state := rfl

theorem set_bind (following : PUnit → EStateM ε σ β) (state next : σ) :
    (set next >>= following) state = following () next := rfl

end

theorem exists_of_isOk {result : Except ε α} (succeeds : result.isOk = true) :
    ∃ value, result = .ok value := by
  cases result with
  | ok value => exact ⟨value, rfl⟩
  | error error => cases succeeds

instance decidableEqError [DecidableEq ε] (error : ε) :
    (result : Except ε α) → Decidable (result = .error error)
  | .ok _ => .isFalse (fun same => by cases same)
  | .error found => decidable_of_iff (found = error) ⟨congrArg _, Except.error.inj⟩

/-- The work keeps what holds of its state, whether it succeeds or fails. -/
def Preserves (keeps : σ → Prop) (work : EStateM ε σ α) : Prop :=
  ∀ state, keeps state →
    match work state with
    | .ok _ next | .error _ next => keeps next

namespace Preserves

variable {keeps : σ → Prop}

theorem ok {work : EStateM ε σ α} (preserves : Preserves keeps work) {state next : σ} {value : α}
    (kept : keeps state) (run : work state = .ok value next) : keeps next := by
  have result := preserves state kept
  rw [run] at result
  exact result

theorem error {work : EStateM ε σ α} (preserves : Preserves keeps work) {state next : σ}
    {error : ε} (kept : keeps state) (run : work state = .error error next) : keeps next := by
  have result := preserves state kept
  rw [run] at result
  exact result

theorem any (work : EStateM ε σ α) : Preserves (fun _ => True) work := by
  intro state _
  split <;> trivial

theorem pure (value : α) : Preserves keeps (pure value : EStateM ε σ α) := fun _ kept => kept

theorem throw (error : ε) : Preserves keeps (throw error : EStateM ε σ α) := fun _ kept => kept

theorem bind {first : EStateM ε σ α} {second : α → EStateM ε σ β}
    (preserves : Preserves keeps first) (later : ∀ value, Preserves keeps (second value)) :
    Preserves keeps (first >>= second) := by
  intro state kept
  cases run : first state with
  | ok value next =>
      rw [bind_of_ok run]
      exact later value next (preserves.ok kept run)
  | error error next =>
      rw [bind_of_error run]
      exact preserves.error kept run

end Preserves

/-- The work fails exactly if there are faults, with the first of them; it keeps what holds of its
state either way. -/
def Meets (keeps : σ → Prop) (faults : List ε) (work : EStateM ε σ α) : Prop :=
  ∀ state, keeps state →
    match work state with
    | .ok _ next => faults = [] ∧ keeps next
    | .error error next => faults.head? = some error ∧ keeps next

namespace Meets

variable {keeps : σ → Prop} {faults : List ε}

theorem ok {work : EStateM ε σ α} (meets : Meets keeps faults work) {state next : σ} {value : α}
    (kept : keeps state) (run : work state = .ok value next) : faults = [] ∧ keeps next := by
  have result := meets state kept
  rw [run] at result
  exact result

theorem error {work : EStateM ε σ α} (meets : Meets keeps faults work) {state next : σ}
    {error : ε} (kept : keeps state) (run : work state = .error error next) :
    faults.head? = some error ∧ keeps next := by
  have result := meets state kept
  rw [run] at result
  exact result

theorem preserves {work : EStateM ε σ α} (meets : Meets keeps faults work) :
    Preserves keeps work := by
  intro state kept
  cases run : work state with
  | ok value next => exact (meets.ok kept run).2
  | error error next => exact (meets.error kept run).2

theorem pure (value : α) : Meets keeps [] (pure value : EStateM ε σ α) :=
  fun _ kept => ⟨rfl, kept⟩

theorem throw {error : ε} (first : faults.head? = some error) :
    Meets keeps faults (throw error : EStateM ε σ α) :=
  fun _ kept => ⟨first, kept⟩

theorem bind {later : List ε} {first : EStateM ε σ α} {second : α → EStateM ε σ β}
    (meets : Meets keeps faults first) (following : ∀ value, Meets keeps later (second value)) :
    Meets keeps (faults ++ later) (first >>= second) := by
  intro state kept
  cases run : first state with
  | ok value next =>
      obtain ⟨none, still⟩ := meets.ok kept run
      rw [bind_of_ok run, none]
      exact following value next still
  | error error next =>
      obtain ⟨found, still⟩ := meets.error kept run
      rw [bind_of_error run]
      refine ⟨?_, still⟩
      rw [List.head?_append, found]
      rfl

end Meets

/-- Two works do the same where something holds of the state. -/
def Agree (keeps : σ → Prop) (work other : EStateM ε σ α) : Prop :=
  ∀ state, keeps state → work state = other state

namespace Agree

variable {keeps : σ → Prop}

theorem refl (work : EStateM ε σ α) : Agree keeps work work := fun _ _ => rfl

theorem bind {first other : EStateM ε σ α} {second next : α → EStateM ε σ β}
    (agree : Agree keeps first other) (preserves : Preserves keeps first)
    (following : ∀ value, Agree keeps (second value) (next value)) :
    Agree keeps (first >>= second) (other >>= next) := by
  intro state kept
  have same := agree state kept
  cases run : first state with
  | ok value after =>
      rw [bind_of_ok run, bind_of_ok (same ▸ run)]
      exact following value after (preserves.ok kept run)
  | error error after => rw [bind_of_error run, bind_of_error (same ▸ run)]

end Agree

end ViewTemplates
