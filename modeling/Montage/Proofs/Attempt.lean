import Mathlib.Data.List.Forall2

/-!
# Attempts

A computation that may fail succeeds when each of its steps does.
-/
namespace Except

variable {ε δ α β : Type}

theorem bind_eq_ok_iff {x : Except ε α} {f : α → Except ε β} {b : β} :
    (x >>= f) = .ok b ↔ ∃ a, x = .ok a ∧ f a = .ok b := by
  cases x <;> simp [bind, Except.bind]

theorem exists_bind_eq_ok_iff {x : Except ε α} {f : α → Except ε β} :
    (∃ b, (x >>= f) = .ok b) ↔ ∃ a, x = .ok a ∧ ∃ b, f a = .ok b := by
  cases x <;> simp [bind, Except.bind]

theorem mapError_eq_ok_iff {f : ε → δ} {x : Except ε α} {a : α} :
    x.mapError f = .ok a ↔ x = .ok a := by
  cases x <;> simp [Except.mapError]

theorem bind_eq_error_iff {x : Except ε α} {f : α → Except ε β} {e : ε} :
    (x >>= f) = .error e ↔ x = .error e ∨ ∃ a, x = .ok a ∧ f a = .error e := by
  cases x <;> simp [bind, Except.bind]

theorem exists_bind_eq_error_iff {x : Except ε α} {f : α → Except ε β} {P : ε → Prop} :
    (∃ e, (x >>= f) = .error e ∧ P e) ↔
      (∃ e, x = .error e ∧ P e) ∨ ∃ a, x = .ok a ∧ ∃ e, f a = .error e ∧ P e := by
  cases x <;> simp [bind, Except.bind]

theorem mapError_eq_error_iff {f : ε → δ} {x : Except ε α} {e : δ} :
    x.mapError f = .error e ↔ ∃ e', x = .error e' ∧ f e' = e := by
  cases x <;> simp [Except.mapError]

theorem map_eq_ok_iff {f : α → β} {x : Except ε α} {b : β} :
    x.map f = .ok b ↔ ∃ a, x = .ok a ∧ f a = b := by
  cases x <;> simp [Except.map]

theorem toOption_eq_some_iff {x : Except ε α} {a : α} : x.toOption = some a ↔ x = .ok a := by
  cases x <;> simp [Except.toOption]

theorem map_eq_error_iff {f : α → β} {x : Except ε α} {e : ε} :
    x.map f = .error e ↔ x = .error e := by
  cases x <;> simp [Except.map]

/-- A list is worked off in vain when one of its members is. -/
theorem exists_of_mapM_eq_error {f : α → Except ε β} {l : List α} {e : ε}
    (h : l.mapM f = .error e) : ∃ a ∈ l, f a = .error e := by
  induction l with
  | nil => cases h
  | cons a rest ih =>
    rw [List.mapM_cons, bind_eq_error_iff] at h
    rcases h with first | ⟨b, _, h⟩
    · exact ⟨a, List.mem_cons_self, first⟩
    · rcases bind_eq_error_iff.mp h with later | ⟨bs, _, h⟩
      · obtain ⟨a', member, failed⟩ := ih later
        exact ⟨a', List.mem_cons_of_mem a member, failed⟩
      · cases h

theorem exists_mapM_eq_ok_iff {f : α → Except ε β} {l : List α} :
    (∃ bs, l.mapM f = .ok bs) ↔ ∀ a ∈ l, ∃ b, f a = .ok b := by
  induction l with
  | nil => exact iff_of_true ⟨[], rfl⟩ (List.forall_mem_nil _)
  | cons a rest ih =>
    rw [List.mapM_cons, List.forall_mem_cons, ← ih]
    simp only [exists_bind_eq_ok_iff]
    constructor
    · rintro ⟨b, first, bs, later, _⟩
      exact ⟨⟨b, first⟩, ⟨bs, later⟩⟩
    · rintro ⟨⟨b, first⟩, ⟨bs, later⟩⟩
      exact ⟨b, first, bs, later, ⟨b :: bs, rfl⟩⟩

theorem mapM_eq_ok_map {f : α → Except ε β} {g : α → β} {l : List α}
    (each : ∀ a ∈ l, f a = .ok (g a)) : l.mapM f = .ok (l.map g) := by
  induction l with
  | nil => rfl
  | cons a rest ih =>
    obtain ⟨first, others⟩ := List.forall_mem_cons.mp each
    rw [List.mapM_cons, first, ih others]
    rfl

/-- A list is folded in vain when a fold of the members before one of them leads to a state in
which that member fails. -/
theorem foldlM_eq_error_iff {f : β → α → Except ε β} {start : β} {l : List α} {e : ε} :
    l.foldlM f start = .error e ↔ ∃ before a after b, l = before ++ a :: after ∧
      before.foldlM f start = .ok b ∧ f b a = .error e := by
  constructor
  · induction l generalizing start with
    | nil => exact nofun
    | cons a rest ih =>
      intro failed
      -- The head fails, or the rest fails when it is folded from where the head has led.
      rcases bind_eq_error_iff.mp failed with here | ⟨next, passed, later⟩
      · exact ⟨[], a, rest, start, rfl, rfl, here⟩
      · obtain ⟨before, c, after, b, rfl, folded, found⟩ := ih later
        refine ⟨a :: before, c, after, b, rfl, ?_, found⟩
        rw [List.foldlM_cons, passed]
        exact folded
  · rintro ⟨before, a, after, b, rfl, folded, found⟩
    rw [List.foldlM_append]
    refine bind_eq_error_iff.mpr (.inr ⟨b, folded, ?_⟩)
    exact bind_eq_error_iff.mpr (.inl found)

/-- When a list is worked off, the results stand in the order of the members. -/
theorem forall₂_of_mapM_eq_ok {f : α → Except ε β} {l : List α} {bs : List β}
    (h : l.mapM f = .ok bs) : List.Forall₂ (fun a b => f a = .ok b) l bs := by
  induction l generalizing bs with
  | nil =>
    cases h
    exact .nil
  | cons a rest ih =>
    rw [List.mapM_cons] at h
    obtain ⟨b, first, h⟩ := bind_eq_ok_iff.mp h
    obtain ⟨others, later, h⟩ := bind_eq_ok_iff.mp h
    cases h
    exact .cons first (ih later)

/-- What each member has in common with its result, the list has in common with the results. -/
theorem map_eq_map_of_mapM_eq_ok {f : α → Except ε β} {g : α → δ} {k : β → δ} {l : List α}
    {bs : List β} (h : l.mapM f = .ok bs) (each : ∀ a ∈ l, ∀ b, f a = .ok b → g a = k b) :
    l.map g = bs.map k := by
  induction l generalizing bs with
  | nil =>
    cases h
    rfl
  | cons a rest ih =>
    rw [List.mapM_cons] at h
    obtain ⟨b, first, h⟩ := bind_eq_ok_iff.mp h
    obtain ⟨others, later, h⟩ := bind_eq_ok_iff.mp h
    cases h
    obtain ⟨own, rest_each⟩ := List.forall_mem_cons.mp each
    rw [List.map_cons, List.map_cons, own b first, ih later rest_each]

/-- When a list is worked off, each member has come to a result, and each result is a member's. -/
theorem mem_of_mapM_eq_ok {f : α → Except ε β} {l : List α} {bs : List β}
    (h : l.mapM f = .ok bs) :
    (∀ a ∈ l, ∃ b ∈ bs, f a = .ok b) ∧ ∀ b ∈ bs, ∃ a ∈ l, f a = .ok b := by
  induction l generalizing bs with
  | nil =>
    cases h
    exact ⟨fun a member => absurd member List.not_mem_nil,
      fun b member => absurd member List.not_mem_nil⟩
  | cons a rest ih =>
    -- The head has come to its own result, and the rest of the list to the rest of the results.
    rw [List.mapM_cons] at h
    obtain ⟨b, first, h⟩ := bind_eq_ok_iff.mp h
    obtain ⟨others, later, h⟩ := bind_eq_ok_iff.mp h
    cases h
    obtain ⟨forth, back⟩ := ih later
    refine ⟨?_, ?_⟩
    · intro c member
      rcases List.mem_cons.mp member with rfl | member
      · exact ⟨b, List.mem_cons_self, first⟩
      · obtain ⟨d, listed, eq⟩ := forth c member
        exact ⟨d, List.mem_cons_of_mem b listed, eq⟩
    · intro d member
      rcases List.mem_cons.mp member with rfl | member
      · exact ⟨a, List.mem_cons_self, first⟩
      · obtain ⟨c, listed, eq⟩ := back d member
        exact ⟨c, List.mem_cons_of_mem a listed, eq⟩

end Except
