import DotBuilder.Command.Perform

/-!
# Laws of actions

How an action ends, read off the steps that it is made of.

* `read_bind`, `change_bind`, `make_bind`, `note_bind`, `require_bind_eq_ok_iff` : what the rest of
  an action goes on with after its first step, so that an action can be gone through step by step;
* `examine_eq_ok_iff`, `fill_eq_ok_iff`, `assign_eq_ok_iff`, `answer_apply`, `present_apply` : the
  actions that others are made of;
* `Quiet`, `Certain`, `Traceless` : a quiet action changes nothing, a certain one is never refused,
  and a traceless one leaves nothing behind when it is refused;
* `Traceless.bind_quiet`, `Traceless.bind_certain` : looking first and changing after is traceless.
-/

namespace DotBuilder.Action

variable {α β : Type} {a : Action α} {f : α → Action β} {s t : State} {y : β}

/-! ## Going through an action -/

@[simp] theorem pure_apply (x : α) : (pure x : Action α) s = .ok x s := rfl

@[simp] theorem read_bind (g : Workspace → α) : (read g >>= f) s = f (g s.workspace) s := rfl

@[simp] theorem change_bind (g : Workspace → Workspace) (h : Unit → Action β) :
    (change g >>= h) s = h () { s with workspace := g s.workspace } := rfl

@[simp] theorem make_bind (g : Workspace → Workspace × α) :
    (make g >>= f) s = f (g s.workspace).2 { s with workspace := (g s.workspace).1 } := rfl

@[simp] theorem note_bind (entries : List LogEntry) (h : Unit → Action β) :
    (note entries >>= h) s = h () { s with log := s.log ++ entries } := rfl

theorem bind_apply : (a >>= f) s = match a s with
    | .ok x r => f x r
    | .error e r => .error e r := by
  show EStateM.bind a f s = _
  unfold EStateM.bind
  cases a s <;> rfl

theorem bind_eq_ok_iff : (a >>= f) s = .ok y t ↔ ∃ x r, a s = .ok x r ∧ f x r = .ok y t := by
  rw [bind_apply]
  cases a s with
  | ok x r => exact ⟨fun h => ⟨x, r, rfl, h⟩, by rintro ⟨_, _, ⟨⟩, h⟩; exact h⟩
  | error e r => simp

theorem bind_eq_error_iff {e : Error} :
    (a >>= f) s = .error e t ↔ a s = .error e t ∨ ∃ x r, a s = .ok x r ∧ f x r = .error e t := by
  rw [bind_apply]
  cases a s with
  | ok x r =>
    constructor
    · exact fun h => .inr ⟨x, r, rfl, h⟩
    · rintro (⟨⟨⟩⟩ | ⟨_, _, ⟨⟩, h⟩)
      exact h
  | error e' r => simp

theorem require_eq_ok_iff {g : Workspace → Except Error α} {x : α} :
    require g s = .ok x t ↔ g s.workspace = .ok x ∧ t = s := by
  unfold require
  cases g s.workspace with
  | ok z => simp [eq_comm]
  | error e => simp

theorem require_eq_error_iff {g : Workspace → Except Error α} {e : Error} :
    require g s = .error e t ↔ g s.workspace = .error e ∧ t = s := by
  unfold require
  cases g s.workspace with
  | ok z => simp
  | error e' => simp [eq_comm]

theorem require_bind_eq_ok_iff {g : Workspace → Except Error α} :
    (require g >>= f) s = .ok y t ↔ ∃ x, g s.workspace = .ok x ∧ f x s = .ok y t := by
  rw [bind_eq_ok_iff]
  constructor
  · rintro ⟨x, r, h, hf⟩
    obtain ⟨hx, rfl⟩ := require_eq_ok_iff.1 h
    exact ⟨x, hx, hf⟩
  · rintro ⟨x, hx, hf⟩
    exact ⟨x, s, require_eq_ok_iff.2 ⟨hx, rfl⟩, hf⟩

/-! ## The parts of commands -/

@[simp] theorem answer_apply (g : Workspace → Answer) :
    answer g s = .ok (.ofAnswer (g s.workspace)) s := rfl

@[simp] theorem present_apply (o : Object) (g : Workspace → Answer) :
    present o g s = .ok (.ofObject (g s.workspace) o) s := rfl

theorem examine_eq_ok_iff {r : AttrSet} {given : Attrs} {found : Findings} :
    examine r given s = .ok found t ↔
      r.check given = .ok found ∧ t = { s with log := s.log ++ LogEntry.ofFindings found } := by
  unfold examine
  simp only [require_bind_eq_ok_iff, note_bind, pure_apply]
  constructor
  · rintro ⟨x, hx, ⟨⟩⟩
    exact ⟨hx, rfl⟩
  · rintro ⟨hx, rfl⟩
    exact ⟨found, hx, rfl⟩

theorem fill_eq_ok_iff {r r' : AttrSet} {given : Attrs} :
    fill r given s = .ok r' t ↔ ∃ found, r.check given = .ok found ∧ r' = r.store given ∧
      t = { s with log := s.log ++ LogEntry.ofFindings found } := by
  unfold fill
  simp only [bind_eq_ok_iff, examine_eq_ok_iff, pure_apply]
  constructor
  · rintro ⟨found, _, ⟨hc, rfl⟩, ⟨⟩⟩
    exact ⟨found, hc, rfl, rfl⟩
  · rintro ⟨found, hc, rfl, rfl⟩
    exact ⟨found, _, ⟨hc, rfl⟩, rfl⟩

theorem assign_eq_ok_iff {k : SetId} {given : Attrs} {found : Findings} :
    assign k given s = .ok found t ↔ (s.workspace.attrSet k).check given = .ok found ∧
      t = ⟨s.workspace.modifySet k fun r => r.store given,
        s.log ++ LogEntry.ofFindings found⟩ := by
  unfold assign
  simp only [read_bind, bind_eq_ok_iff, examine_eq_ok_iff, change_bind, pure_apply]
  constructor
  · rintro ⟨x, _, ⟨hc, rfl⟩, ⟨⟩⟩
    exact ⟨hc, rfl⟩
  · rintro ⟨hc, rfl⟩
    exact ⟨found, _, ⟨hc, rfl⟩, rfl⟩

/-! ## Actions that are never refused -/

/-- The action is never refused. -/
def Certain (a : Action α) : Prop := ∀ s e t, a s ≠ .error e t

theorem Certain.bind (ha : Certain a) (hf : ∀ x, Certain (f x)) : Certain (a >>= f) := by
  intro s e t h
  rcases bind_eq_error_iff.1 h with h | ⟨x, r, -, h⟩
  · exact ha s e t h
  · exact hf x r e t h

theorem certain_pure (x : α) : Certain (pure x : Action α) := by
  intro s e t h
  cases h

theorem certain_read (g : Workspace → α) : Certain (read g) := by
  intro s e t h
  cases h

theorem certain_change (g : Workspace → Workspace) : Certain (change g) := by
  intro s e t h
  cases h

theorem certain_make (g : Workspace → Workspace × α) : Certain (make g) := by
  intro s e t h
  cases h

theorem certain_note (entries : List LogEntry) : Certain (note entries) := by
  intro s e t h
  cases h

/-- Only the first part of an action is refused if the rest is certain. -/
theorem eq_error_of_bind_certain {e : Error} (hf : ∀ x, Certain (f x))
    (h : (a >>= f) s = .error e t) : a s = .error e t := by
  rcases bind_eq_error_iff.1 h with h | ⟨x, r, -, h⟩
  · exact h
  · exact absurd h (hf x r e t)

/-! ## Refusals by the check of attributes -/

theorem check_of_examine_eq_error {r : AttrSet} {given : Attrs} {e : Error}
    (h : examine r given s = .error e t) : r.check given = .error e := by
  have hr := eq_error_of_bind_certain (fun _ => (certain_note _).bind fun _ => certain_pure _) h
  exact (require_eq_error_iff.1 hr).1

theorem check_of_fill_eq_error {r : AttrSet} {given : Attrs} {e : Error}
    (h : fill r given s = .error e t) : r.check given = .error e :=
  check_of_examine_eq_error (eq_error_of_bind_certain (fun _ => certain_pure _) h)

theorem check_of_assign_eq_error {k : SetId} {given : Attrs} {e : Error}
    (h : assign k given s = .error e t) : (s.workspace.attrSet k).check given = .error e := by
  unfold assign at h
  rw [read_bind] at h
  exact check_of_examine_eq_error
    (eq_error_of_bind_certain (fun _ => (certain_change _).bind fun _ => certain_pure _) h)

theorem examine_of_check_eq_error {r : AttrSet} {given : Attrs} {e : Error}
    (h : r.check given = .error e) : examine r given s = .error e s :=
  bind_eq_error_iff.2 (.inl (require_eq_error_iff.2 ⟨h, rfl⟩))

theorem fill_of_check_eq_error {r : AttrSet} {given : Attrs} {e : Error}
    (h : r.check given = .error e) : fill r given s = .error e s :=
  bind_eq_error_iff.2 (.inl (examine_of_check_eq_error h))

theorem assign_of_check_eq_error {k : SetId} {given : Attrs} {e : Error}
    (h : (s.workspace.attrSet k).check given = .error e) : assign k given s = .error e s := by
  unfold assign
  rw [read_bind]
  exact bind_eq_error_iff.2 (.inl (examine_of_check_eq_error h))

/-! ## Actions that change nothing -/

/-- The action leaves the workspace and the log as they are, unless it is refused. -/
def Quiet (a : Action α) : Prop := ∀ s x t, a s = .ok x t → t = s

theorem quiet_read (g : Workspace → α) : Quiet (read g) := by
  intro s x t h
  cases h
  rfl

theorem quiet_require (g : Workspace → Except Error α) : Quiet (require g) :=
  fun _ _ _ h => (require_eq_ok_iff.1 h).2

/-! ## Actions that leave nothing behind -/

/-- The action leaves the workspace and the log as they were when it is refused. -/
def Traceless (a : Action α) : Prop := ∀ s e t, a s = .error e t → t = s

theorem Certain.traceless (ha : Certain a) : Traceless a :=
  fun s e t h => absurd h (ha s e t)

theorem traceless_require (g : Workspace → Except Error α) : Traceless (require g) := by
  intro s e t h
  unfold require at h
  split at h
  · cases h
  · cases h
    rfl

/-- Looking at something first keeps an action traceless. -/
theorem Traceless.bind_quiet (ha : Traceless a) (hq : Quiet a) (hf : ∀ x, Traceless (f x)) :
    Traceless (a >>= f) := by
  intro s e t h
  rcases bind_eq_error_iff.1 h with h | ⟨x, r, hok, h⟩
  · exact ha s e t h
  · have hr : r = s := hq s x r hok
    exact hr ▸ hf x r e t h

/-- Nothing can be left behind once nothing can be refused any more. -/
theorem Traceless.bind_certain (ha : Traceless a) (hf : ∀ x, Certain (f x)) :
    Traceless (a >>= f) := by
  intro s e t h
  rcases bind_eq_error_iff.1 h with h | ⟨x, r, -, h⟩
  · exact ha s e t h
  · exact absurd h (hf x r e t)

end DotBuilder.Action
