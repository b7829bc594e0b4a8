/-! What single effects come to when they run. A computation that may fail is run in a state and
gives its outcome with the state it leaves, and a failure keeps what was done before it. Proofs about
runs take such an outcome apart in one go (`outcome_cases`). -/
namespace SchemaCompiler.Effect

variable {e e' σ α β : Type}

/-- A run ends with a refusal or with a value, and leaves a state either way. -/
@[elab_as_elim]
theorem outcome_cases {motive : Except e α × σ → Prop}
    (error : ∀ refusal after, motive (.error refusal, after))
    (ok : ∀ value after, motive (.ok value, after)) (outcome : Except e α × σ) : motive outcome := by
  obtain ⟨result, after⟩ := outcome
  cases result with
  | error refusal => exact error refusal after
  | ok value => exact ok value after

theorem bind_run (first : ExceptT e (StateM σ) α) (next : α → ExceptT e (StateM σ) β)
    (state : σ) :
    (first >>= next) state =
      match first state with
      | (.ok value, after) => next value after
      | (.error refusal, after) => (.error refusal, after) := by
  simp only [bind, ExceptT.bind, ExceptT.mk, StateT.bind]
  cases first state using outcome_cases <;> rfl

/-- What the first of two computations keeps, and the second does from wherever it is taken up, holds
at the end. -/
theorem bind_keeps {first : ExceptT e (StateM σ) α} {next : α → ExceptT e (StateM σ) β}
    {P : σ → Prop} {state : σ} (begun : P (first state).2)
    (later : ∀ value after, P after → P (next value after).2) : P ((first >>= next) state).2 := by
  rw [bind_run]
  generalize first state = run at begun ⊢
  cases run using outcome_cases with
  | error refusal after => exact begun
  | ok value after => exact later value after begun

/-- Two computations in a row are refused for what one of them is. -/
theorem bind_refused {first : ExceptT e (StateM σ) α} {next : α → ExceptT e (StateM σ) β} {state : σ}
    {refusal : e} (refused : ((first >>= next) state).1 = .error refusal) :
    (first state).1 = .error refusal ∨
      ∃ value, (next value (first state).2).1 = .error refusal := by
  rw [bind_run] at refused
  generalize first state = run at refused ⊢
  cases run using outcome_cases with
  | error reason after =>
    cases refused
    exact Or.inl rfl
  | ok value after => exact Or.inr ⟨value, refused⟩

theorem pure_run (value : α) (state : σ) :
    (pure value : ExceptT e (StateM σ) α) state = (.ok value, state) := rfl

theorem get_run (state : σ) : (get : ExceptT e (StateM σ) σ) state = (.ok state, state) := rfl

theorem modify_run (change : σ → σ) (state : σ) :
    (modify change : ExceptT e (StateM σ) PUnit) state = (.ok ⟨⟩, change state) := rfl

theorem lift_run (result : Except e α) (state : σ) :
    (liftM result : ExceptT e (StateM σ) α) state = (result, state) := rfl

/-- Wrapping a failure changes nothing else. -/
theorem adapt_run (wrap : e → e') (first : ExceptT e (StateM σ) α) (state : σ) :
    (first.adapt wrap) state = ((first state).1.mapError wrap, (first state).2) := rfl

theorem forM_cons_run (work : α → ExceptT e (StateM σ) Unit) (first : α) (rest : List α)
    (state : σ) :
    (first :: rest).forM work state =
      match work first state with
      | (.error refusal, after) => (.error refusal, after)
      | (.ok (), after) => rest.forM work after := by
  change (work first >>= fun _ => rest.forM work) state = _
  rw [bind_run]
  cases work first state using outcome_cases <;> rfl

/-- A step that is granted is followed by the others. -/
theorem forM_cons_of_ok {work : α → ExceptT e (StateM σ) Unit} {first : α} {state : σ}
    (went : (work first state).1 = .ok ()) (rest : List α) :
    (first :: rest).forM work state = rest.forM work (work first state).2 := by
  rw [forM_cons_run]
  generalize work first state = run at went ⊢
  cases run using outcome_cases with
  | error refusal => cases went
  | ok => rfl

/-- What a row of steps is refused for, one of them is refused for. -/
theorem forM_refused {work : α → ExceptT e (StateM σ) Unit} {steps : List α} {state : σ} {refusal : e}
    (refused : (steps.forM work state).1 = .error refusal) :
    ∃ step ∈ steps, ∃ found, (work step found).1 = .error refusal := by
  induction steps generalizing state with
  | nil => cases refused
  | cons step rest ih =>
    change ((work step >>= fun _ => rest.forM work) state).1 = _ at refused
    rcases bind_refused refused with failed | ⟨_, failed⟩
    · exact ⟨step, List.mem_cons_self, state, failed⟩
    · obtain ⟨later, listed, found, failed⟩ := ih failed
      exact ⟨later, List.mem_cons_of_mem _ listed, found, failed⟩

/-- What each step keeps is kept by a row of them, wherever it stops. -/
theorem forM_keeps {work : α → ExceptT e (StateM σ) Unit} {P : σ → Prop} {steps : List α}
    (keeps : ∀ step ∈ steps, ∀ state, P state → P (work step state).2) {state : σ}
    (start : P state) : P (steps.forM work state).2 := by
  induction steps generalizing state with
  | nil => exact start
  | cons step rest ih =>
    rw [List.forall_mem_cons] at keeps
    change P ((work step >>= fun _ => rest.forM work) state).2
    exact bind_keeps (keeps.1 state start) fun _ _ => ih keeps.2

/-- Decisions in a row succeed if each does. -/
theorem bind_eq_ok_iff {first : Except e α} {next : α → Except e β} {result : β} :
    (first >>= next) = .ok result ↔ ∃ value, first = .ok value ∧ next value = .ok result := by
  cases first with
  | error refusal =>
    constructor
    · rintro ⟨⟩
    · rintro ⟨_, ⟨⟩, _⟩
  | ok value =>
    constructor
    · exact fun ran => ⟨value, rfl, ran⟩
    · rintro ⟨_, ⟨⟩, ran⟩
      exact ran

/-- Decisions in a row are refused for what one of them is. -/
theorem bind_eq_error_iff {first : Except e α} {next : α → Except e β} {refusal : e} :
    (first >>= next) = .error refusal ↔
      first = .error refusal ∨ ∃ value, first = .ok value ∧ next value = .error refusal := by
  cases first with
  | error other =>
    constructor
    · rintro ⟨⟩
      exact Or.inl rfl
    · rintro (⟨⟨⟩⟩ | ⟨_, ⟨⟩, _⟩)
      rfl
  | ok value =>
    constructor
    · exact fun refused => Or.inr ⟨value, rfl, refused⟩
    · rintro (⟨⟨⟩⟩ | ⟨_, ⟨⟩, refused⟩)
      exact refused

theorem map_eq_ok_iff {result : Except e α} {change : α → β} {value : β} :
    result.map change = .ok value ↔ ∃ given, result = .ok given ∧ change given = value := by
  cases result with
  | error refusal => simp [Except.map]
  | ok given => simp [Except.map]

theorem map_eq_error_iff {result : Except e α} {change : α → β} {refusal : e} :
    result.map change = .error refusal ↔ result = .error refusal := by
  cases result with
  | error reason => simp [Except.map]
  | ok given => simp [Except.map]

theorem mapError_eq_error_iff {result : Except e α} {wrap : e → e'} {refusal : e'} :
    result.mapError wrap = .error refusal ↔ ∃ source, result = .error source ∧ wrap source = refusal := by
  cases result with
  | error source =>
    constructor
    · rintro ⟨⟩
      exact ⟨source, rfl, rfl⟩
    · rintro ⟨_, ⟨⟩, rfl⟩
      rfl
  | ok value =>
    constructor
    · rintro ⟨⟩
    · rintro ⟨_, ⟨⟩, -⟩

/-- A row of decisions is refused for what the first of them is that cannot be made. -/
theorem mapM_eq_error_iff {decide : α → Except e β} {items : List α} {refusal : e} :
    items.mapM decide = .error refusal ↔
      ∃ earlier item later, items = earlier ++ item :: later ∧
        (∀ other ∈ earlier, ∃ value, decide other = .ok value) ∧ decide item = .error refusal := by
  induction items with
  | nil =>
    constructor
    · rintro ⟨⟩
    · rintro ⟨earlier, item, later, split, -⟩
      simp at split
  | cons first rest ih =>
    rw [List.mapM_cons, bind_eq_error_iff]
    constructor
    · rintro (failed | ⟨value, made, failed⟩)
      · exact ⟨[], first, rest, rfl, List.forall_mem_nil _, failed⟩
      · rcases bind_eq_error_iff.1 failed with failed | ⟨values, -, same⟩
        · obtain ⟨earlier, item, later, rfl, made', failed⟩ := ih.1 failed
          exact ⟨first :: earlier, item, later, rfl, List.forall_mem_cons.2 ⟨⟨value, made⟩, made'⟩,
            failed⟩
        · cases same
    · rintro ⟨earlier, item, later, split, made, failed⟩
      cases earlier with
      | nil =>
        cases split
        exact Or.inl failed
      | cons other earlier =>
        cases split
        rw [List.forall_mem_cons] at made
        obtain ⟨⟨value, first⟩, made⟩ := made
        exact Or.inr ⟨value, first, bind_eq_error_iff.2 (Or.inl
          (ih.2 ⟨earlier, item, later, rfl, made, failed⟩))⟩

theorem mapM_refused {decide : α → Except e β} {items : List α} {refusal : e}
    (refused : items.mapM decide = .error refusal) :
    ∃ item ∈ items, decide item = .error refusal := by
  obtain ⟨earlier, item, later, rfl, -, failed⟩ := mapM_eq_error_iff.1 refused
  exact ⟨item, List.mem_append_right earlier List.mem_cons_self, failed⟩

theorem mapM_ok_iff {decide : α → Except e β} {items : List α} :
    (∃ values, items.mapM decide = .ok values) ↔ ∀ item ∈ items, ∃ value, decide item = .ok value := by
  induction items with
  | nil => exact ⟨fun _ => List.forall_mem_nil _, fun _ => ⟨[], rfl⟩⟩
  | cons item rest ih =>
    rw [List.mapM_cons, List.forall_mem_cons, ← ih]
    constructor
    · rintro ⟨_, decided⟩
      obtain ⟨value, first, decided⟩ := bind_eq_ok_iff.1 decided
      obtain ⟨values, later, -⟩ := bind_eq_ok_iff.1 decided
      exact ⟨⟨value, first⟩, ⟨values, later⟩⟩
    · rintro ⟨⟨value, first⟩, ⟨values, later⟩⟩
      exact ⟨value :: values, bind_eq_ok_iff.2 ⟨value, first, bind_eq_ok_iff.2 ⟨values, later, rfl⟩⟩⟩

/-- Checks in a row pass if each does. -/
theorem forM_eq_ok_iff {check : α → Except e Unit} {items : List α} :
    items.forM check = .ok () ↔ ∀ item ∈ items, check item = .ok () := by
  induction items with
  | nil => exact ⟨fun _ => List.forall_mem_nil _, fun _ => rfl⟩
  | cons item rest ih =>
    change (check item >>= fun _ => rest.forM check) = _ ↔ _
    rw [bind_eq_ok_iff, List.forall_mem_cons, ih]
    constructor
    · rintro ⟨_, first, others⟩
      exact ⟨first, others⟩
    · rintro ⟨first, others⟩
      exact ⟨(), first, others⟩

/-- Checks in a row are refused for what the first of them is that does not pass. -/
theorem forM_eq_error_iff {check : α → Except e Unit} {items : List α} {refusal : e} :
    items.forM check = .error refusal ↔
      ∃ earlier item later, items = earlier ++ item :: later ∧
        (∀ other ∈ earlier, check other = .ok ()) ∧ check item = .error refusal := by
  induction items with
  | nil =>
    constructor
    · rintro ⟨⟩
    · rintro ⟨earlier, item, later, split, -⟩
      simp at split
  | cons first rest ih =>
    change (check first >>= fun _ => rest.forM check) = _ ↔ _
    rw [bind_eq_error_iff]
    constructor
    · rintro (failed | ⟨_, passed, failed⟩)
      · exact ⟨[], first, rest, rfl, List.forall_mem_nil _, failed⟩
      · obtain ⟨earlier, item, later, rfl, passed', failed⟩ := ih.1 failed
        exact ⟨first :: earlier, item, later, rfl, List.forall_mem_cons.2 ⟨passed, passed'⟩, failed⟩
    · rintro ⟨earlier, item, later, split, passed, failed⟩
      cases earlier with
      | nil =>
        cases split
        exact Or.inl failed
      | cons other earlier =>
        cases split
        rw [List.forall_mem_cons] at passed
        exact Or.inr ⟨(), passed.1, ih.2 ⟨earlier, item, later, rfl, passed.2, failed⟩⟩

/-! ## Two runs -/

variable {α' β' : Type}

/-- Two runs that end in related states, with values that agree or with the same refusal. -/
inductive Twins (related : σ → σ → Prop) (agree : α → α' → Prop) :
    Except e α × σ → Except e α' × σ → Prop
  | refused {refusal : e} {state other : σ} (same : related state other) :
      Twins related agree (.error refusal, state) (.error refusal, other)
  | granted {value : α} {value' : α'} {state other : σ} (agrees : agree value value')
      (same : related state other) : Twins related agree (.ok value, state) (.ok value', other)

namespace Twins

variable {related : σ → σ → Prop} {agree : α → α' → Prop} {agree' : β → β' → Prop}

theorem bind {first : ExceptT e (StateM σ) α} {second : ExceptT e (StateM σ) α'}
    {next : α → ExceptT e (StateM σ) β} {next' : α' → ExceptT e (StateM σ) β'} {state other : σ}
    (begun : Twins related agree (first state) (second other))
    (later : ∀ {value value' state other}, agree value value' → related state other →
      Twins related agree' (next value state) (next' value' other)) :
    Twins related agree' ((first >>= next) state) ((second >>= next') other) := by
  rw [bind_run, bind_run]
  generalize first state = ran at begun ⊢
  generalize second other = ran' at begun ⊢
  cases begun with
  | refused same => exact .refused same
  | granted agrees same => exact later agrees same

theorem adapt {e' : Type} (wrap : e → e') {first : ExceptT e (StateM σ) α}
    {second : ExceptT e (StateM σ) α'} {state other : σ}
    (ran : Twins related agree (first state) (second other)) :
    Twins related agree ((first.adapt wrap) state) ((second.adapt wrap) other) := by
  rw [adapt_run, adapt_run]
  generalize first state = ran at ran ⊢
  generalize second other = ran' at ran ⊢
  cases ran with
  | refused same => exact .refused same
  | granted agrees same => exact .granted agrees same

/-- Steps that are twins one by one are twins in a row. -/
theorem forM {work work' : α → ExceptT e (StateM σ) Unit} {steps : List α}
    (each : ∀ step {state other}, related state other →
      Twins related (· = ·) (work step state) (work' step other))
    {state other : σ} (same : related state other) :
    Twins related (· = ·) (steps.forM work state) (steps.forM work' other) := by
  induction steps generalizing state other with
  | nil => exact .granted rfl same
  | cons step rest ih =>
    change Twins related _ ((work step >>= fun _ => rest.forM work) state)
      ((work' step >>= fun _ => rest.forM work') other)
    exact (each step same).bind fun _ same => ih same

/-- Twins that agree in everything are one run. -/
theorem eq_iff {run run' : Except e α × σ} : Twins (· = ·) (· = ·) run run' ↔ run' = run := by
  constructor
  · intro twins
    cases twins with
    | refused same => rw [same]
    | granted agrees same => rw [agrees, same]
  · rintro rfl
    obtain ⟨result, state⟩ := run'
    cases result with
    | error refusal => exact .refused rfl
    | ok value => exact .granted rfl rfl

theorem outcome {run run' : Except e α × σ} (twins : Twins related (· = ·) run run') :
    run'.1 = run.1 ∧ related run.2 run'.2 := by
  cases twins with
  | refused same => exact ⟨rfl, same⟩
  | granted agrees same => exact ⟨congrArg Except.ok agrees.symm, same⟩

end Twins

end SchemaCompiler.Effect
