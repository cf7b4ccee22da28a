import Mathlib.Data.List.Nodup
import Montage.Render.Lock

/-!
# The lock table

A table keeps its locks well when each destination in use has one lock of its own. Such a table is
read as a map from destinations to locks, and every operation changes that map only at the
destination that it is for.
-/
namespace Montage

namespace LockTable

/-- Each destination in use has one lock, which no other destination shares, and no removal has
missed its lock. -/
structure WellKept (table : LockTable) : Prop where
  made : ∀ destination lock, table.find? destination = some lock → lock < table.locks.length
  own : ∀ destination other lock, table.find? destination = some lock →
    table.find? other = some lock → destination = other
  keys : (table.current.map (·.1)).Nodup
  missed : table.missed = 0

/-- The lock in charge of a destination. -/
def inCharge? (table : LockTable) (destination : Path) : Option DestinationLock :=
  (table.find? destination).bind (table.locks[·]?)

variable {table : LockTable} {destination other : Path} {lock : Nat}

/-- A destination without a lock is no key of the table. -/
theorem find?_eq_none : table.find? destination = none ↔
    destination ∉ table.current.map (·.1) := by
  simp only [find?, Option.map_eq_none_iff, List.find?_eq_none, List.mem_map, decide_eq_true_eq,
    not_exists, not_and]

/-- The empty table is well kept. -/
theorem wellKept_empty : empty.WellKept := by
  refine ⟨?_, ?_, List.nodup_nil, rfl⟩
  · rintro _ _ ⟨⟩
  · rintro _ _ _ ⟨⟩

/-- In a well-kept table a lock that is found is there. -/
theorem WellKept.inCharge?_eq_none (kept : table.WellKept) :
    table.inCharge? destination = none ↔ table.find? destination = none := by
  rw [inCharge?]
  cases found : table.find? destination with
  | none => exact ⟨fun _ => rfl, fun _ => rfl⟩
  | some lock =>
    have below := kept.made destination lock found
    simp [List.getElem?_eq_getElem below]

/-! ### A lock updated in place -/

@[simp]
theorem find?_update (f : DestinationLock → DestinationLock) :
    (table.update lock f).find? destination = table.find? destination := rfl

/-- A well-kept table stays so whatever is written into one of its locks. -/
theorem WellKept.update (kept : table.WellKept) (lock : Nat)
    (f : DestinationLock → DestinationLock) : (table.update lock f).WellKept := by
  refine ⟨?_, kept.own, kept.keys, kept.missed⟩
  intro destination lock' found
  rw [LockTable.update, List.length_modify]
  exact kept.made destination lock' found

theorem inCharge?_update_self (found : table.find? destination = some lock)
    (f : DestinationLock → DestinationLock) :
    (table.update lock f).inCharge? destination = (table.inCharge? destination).map f := by
  rw [inCharge?, inCharge?, find?_update, found]
  exact List.getElem?_modify_eq ..

/-- The locks of other destinations are other locks. -/
theorem WellKept.inCharge?_update_of_ne (kept : table.WellKept)
    (found : table.find? destination = some lock) (ne : other ≠ destination)
    (f : DestinationLock → DestinationLock) :
    (table.update lock f).inCharge? other = table.inCharge? other := by
  simp only [inCharge?, find?_update]
  cases there : table.find? other with
  | none => rfl
  | some lock' =>
    -- Two destinations have two locks, so the other one's is not the one that changes.
    have apart : lock ≠ lock' := by
      rintro rfl
      exact ne (kept.own other destination lock there found)
    exact List.getElem?_modify_ne f table.locks apart

/-! ### A lock made or joined -/

theorem enter_of_some (found : table.find? destination = some lock) :
    table.enter destination =
      (table.update lock fun l => { l with users := l.users + 1 }, lock) := by
  rw [enter, found]

theorem enter_of_none (free : table.find? destination = none) :
    table.enter destination = ({ table with
      locks := table.locks ++ [⟨1, none, []⟩]
      current := table.current ++ [(destination, table.locks.length)] }, table.locks.length) := by
  rw [enter, free]

theorem find?_enter_self : (table.enter destination).1.find? destination =
    some (table.enter destination).2 := by
  cases found : table.find? destination with
  | some lock => rw [enter_of_some found, find?_update, found]
  | none =>
    rw [enter_of_none found]
    rw [find?, Option.map_eq_none_iff] at found
    simp [find?, List.find?_append, found]

theorem find?_enter_of_ne (ne : other ≠ destination) :
    (table.enter destination).1.find? other = table.find? other := by
  cases found : table.find? destination with
  | some lock => rw [enter_of_some found, find?_update]
  | none =>
    rw [enter_of_none found]
    simp [find?, List.find?_append, ne.symm]

theorem find?_enter_of_some (found : table.find? other = some lock) :
    (table.enter destination).1.find? other = some lock := by
  by_cases same : other = destination
  · subst same
    rw [enter_of_some found]
    exact found
  · rw [find?_enter_of_ne same, found]

/-- Entering keeps a table well kept. -/
theorem WellKept.enter (kept : table.WellKept) (destination : Path) :
    (table.enter destination).1.WellKept := by
  cases found : table.find? destination with
  | some lock =>
    rw [enter_of_some found]
    exact kept.update lock _
  | none =>
    have old (other : Path) (lock : Nat)
        (h : (table.enter destination).1.find? other = some lock) :
        (other = destination ∧ lock = table.locks.length) ∨ table.find? other = some lock := by
      by_cases same : other = destination
      · subst same
        rw [find?_enter_self, enter_of_none found] at h
        exact .inl ⟨rfl, (Option.some.inj h).symm⟩
      · rw [find?_enter_of_ne same] at h
        exact .inr h
    refine ⟨?_, ?_, ?_, ?_⟩
    · intro other lock h
      rw [enter_of_none found, List.length_append]
      rcases old other lock h with ⟨_, rfl⟩ | before
      · exact Nat.lt_succ_self _
      · exact Nat.lt_succ_of_lt (kept.made other lock before)
    · intro one two lock h h'
      -- The new lock's place was free, so no lock made before is in it.
      rcases old one lock h with ⟨rfl, new⟩ | before <;>
        rcases old two lock h' with ⟨rfl, new'⟩ | before'
      · rfl
      · have := kept.made two lock before'
        omega
      · have := kept.made one lock before
        omega
      · exact kept.own one two lock before before'
    · rw [enter_of_none found, List.map_append]
      exact List.Nodup.append kept.keys (List.nodup_singleton _)
        (List.disjoint_singleton.mpr (find?_eq_none.mp found))
    · rw [enter_of_none found]
      exact kept.missed

/-- A lock that a render comes to: the one in charge with one user more, or a new one. -/
def joined : Option DestinationLock → DestinationLock
  | some l => { l with users := l.users + 1 }
  | none => ⟨1, none, []⟩

/-- Who enters joins the lock of the destination, or a new one. -/
theorem WellKept.inCharge?_enter_self (kept : table.WellKept) :
    (table.enter destination).1.inCharge? destination =
      some (joined (table.inCharge? destination)) := by
  cases found : table.find? destination with
  | some lock =>
    have below := kept.made destination lock found
    rw [enter_of_some found, inCharge?_update_self found, inCharge?, found, Option.bind_some,
      List.getElem?_eq_getElem below]
    rfl
  | none =>
    rw [inCharge?, find?_enter_self, kept.inCharge?_eq_none.mpr found, enter_of_none found]
    simp [joined]

/-- Entering concerns one destination. -/
theorem WellKept.inCharge?_enter_of_ne (kept : table.WellKept) (ne : other ≠ destination) :
    (table.enter destination).1.inCharge? other = table.inCharge? other := by
  cases found : table.find? destination with
  | some lock =>
    rw [enter_of_some found]
    exact kept.inCharge?_update_of_ne found ne _
  | none =>
    rw [inCharge?, find?_enter_of_ne ne, inCharge?, enter_of_none found]
    cases there : table.find? other with
    | none => rfl
    | some lock => exact List.getElem?_append_left (kept.made other lock there)

/-! ### A lock left -/

theorem find?_remove_of_some (found : table.find? destination = some lock) :
    (table.remove destination).find? other =
      if other = destination then none else table.find? other := by
  rw [remove, found]
  by_cases same : other = destination
  · subst same
    rw [if_pos rfl, find?_eq_none]
    simp
  · have kept (entry : Path × Nat) :
        entry.1 ≠ destination ∧ entry.1 = other ↔ entry.1 = other :=
      ⟨And.right, fun here => ⟨here ▸ same, here⟩⟩
    simp only [find?, List.find?_filter, decide_eq_true_eq, kept, if_neg same]

/-- A well-kept table stays so when the lock of a destination is dropped from it. -/
theorem WellKept.remove (kept : table.WellKept) (found : table.find? destination = some lock) :
    (table.remove destination).WellKept := by
  -- What is still found was found before.
  have old (other : Path) (lock : Nat)
      (h : (table.remove destination).find? other = some lock) : table.find? other = some lock := by
    rw [find?_remove_of_some found] at h
    split at h
    · cases h
    · exact h
  refine ⟨?_, ?_, ?_, ?_⟩
  · intro other lock h
    rw [LockTable.remove, found]
    exact kept.made other lock (old other lock h)
  · intro one two lock h h'
    exact kept.own one two lock (old one lock h) (old two lock h')
  · rw [LockTable.remove, found]
    exact kept.keys.sublist (List.filter_sublist.map _)
  · rw [LockTable.remove, found]
    exact kept.missed

/-- A lock that its holder has left. -/
def freed (l : DestinationLock) : DestinationLock :=
  { l with holder := none, users := l.users - 1 }

theorem leave_eq {l : DestinationLock} (here : table.locks[lock]? = some l) :
    table.leave lock destination =
      if (freed l).users = 0 then (table.update lock freed).remove destination
      else table.update lock freed := by
  have users : (table.update lock freed).users lock = (freed l).users := by
    rw [LockTable.users, update, List.getElem?_modify_eq, here]
    rfl
  rw [← users]
  rfl

/-- Leaving keeps a table well kept. -/
theorem WellKept.leave (kept : table.WellKept) (found : table.find? destination = some lock) :
    (table.leave lock destination).WellKept := by
  have here := List.getElem?_eq_getElem (kept.made destination lock found)
  rw [leave_eq here]
  split
  · exact (kept.update lock freed).remove found
  · exact kept.update lock freed

theorem find?_leave_self {l : DestinationLock} (found : table.find? destination = some lock)
    (here : table.locks[lock]? = some l) :
    (table.leave lock destination).find? destination =
      if (freed l).users = 0 then none else some lock := by
  have still : (table.update lock freed).find? destination = some lock := found
  rw [leave_eq here]
  split
  · rw [find?_remove_of_some still, if_pos rfl]
  · exact found

/-- Who leaves frees the lock, and the last one drops it. -/
theorem inCharge?_leave_self {l : DestinationLock} (found : table.find? destination = some lock)
    (here : table.locks[lock]? = some l) :
    (table.leave lock destination).inCharge? destination =
      if (freed l).users = 0 then none else some (freed l) := by
  rw [inCharge?, find?_leave_self found here, leave_eq here]
  split
  · rfl
  · exact (List.getElem?_modify_eq ..).trans (congrArg (Option.map freed) here)

theorem find?_leave_of_ne (found : table.find? destination = some lock) (ne : other ≠ destination) :
    (table.leave lock destination).find? other = table.find? other := by
  have still : (table.update lock freed).find? destination = some lock := found
  change (if (table.update lock freed).users lock = 0 then _ else _ : LockTable).find? other = _
  split
  · exact (find?_remove_of_some still).trans (if_neg ne)
  · rfl

/-- Where no lock is in charge, none is when one has been left. -/
theorem find?_leave_of_none (lock : Nat) (left : Path) (free : table.find? destination = none) :
    (table.leave lock left).find? destination = none := by
  simp only [leave]
  split
  · rw [remove]
    split
    · rw [find?_eq_none] at free ⊢
      intro there
      obtain ⟨entry, kept, same⟩ := List.mem_map.mp there
      exact free (List.mem_map.mpr ⟨entry, List.mem_of_mem_filter kept, same⟩)
    · exact free
  · exact free

/-- A new lock is held by nobody. -/
theorem isTaken_enter_of_none (free : table.find? destination = none) :
    (table.enter destination).1.isTaken (table.enter destination).2 = false := by
  simp [enter_of_none free, isTaken]

/-- Leaving concerns one destination. -/
theorem WellKept.inCharge?_leave_of_ne (kept : table.WellKept)
    (found : table.find? destination = some lock) (ne : other ≠ destination) :
    (table.leave lock destination).inCharge? other = table.inCharge? other := by
  have here := List.getElem?_eq_getElem (kept.made destination lock found)
  have locks : (table.leave lock destination).locks = (table.update lock freed).locks := by
    rw [leave_eq here]
    split
    · rw [LockTable.remove, find?_update, found]
    · rfl
  rw [inCharge?, locks, find?_leave_of_ne found ne]
  exact kept.inCharge?_update_of_ne found ne freed

end LockTable

end Montage
