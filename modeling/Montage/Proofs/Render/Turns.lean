import Mathlib.Logic.Relation
import Montage.Proofs.Render.LockTable
import Montage.Proofs.Render.Schedule

/-!
# Taking turns

A render stands outside the locks, waits for one, or holds one. It changes the table only in the
moves that lead from one of these places to the next, and every move keeps count: the lock of a
destination is in charge exactly as long as renders wait for it or hold it, knows how many they
are, and is held by one of them at most. So renders to one destination take turns, in whatever
order the steps of all renders are taken.
-/
namespace Montage

/-- Where a render stands to the locks. -/
inductive Standing where
  | outside
  | waiting (destination : Path) (lock : Nat)
  | holding (destination : Path) (lock : Nat)

namespace Standing

/-- The destination and the lock that a render waits for or holds. -/
def place? : Standing → Option (Path × Nat)
  | outside => none
  | waiting destination lock => some (destination, lock)
  | holding destination lock => some (destination, lock)

/-- Whether a render has entered the lock of a destination and not left it. -/
def isInside (destination : Path) (s : Standing) : Bool :=
  match s.place? with
  | some (entered, _) => entered = destination
  | none => false

/-- Whether a render is writing to a destination. -/
def isHolding (destination : Path) : Standing → Bool
  | holding held _ => held = destination
  | _ => false

@[simp]
theorem isInside_outside (destination : Path) : outside.isInside destination = false := rfl

@[simp]
theorem isInside_waiting (destination entered : Path) (lock : Nat) :
    (waiting entered lock).isInside destination = decide (entered = destination) := rfl

@[simp]
theorem isInside_holding (destination entered : Path) (lock : Nat) :
    (holding entered lock).isInside destination = decide (entered = destination) := rfl

@[simp]
theorem isHolding_outside (destination : Path) : outside.isHolding destination = false := rfl

@[simp]
theorem isHolding_waiting (destination entered : Path) (lock : Nat) :
    (waiting entered lock).isHolding destination = false := rfl

@[simp]
theorem isHolding_holding (destination held : Path) (lock : Nat) :
    (holding held lock).isHolding destination = decide (held = destination) := rfl

theorem isInside_iff {destination : Path} {s : Standing} :
    s.isInside destination = true ↔ ∃ lock, s.place? = some (destination, lock) := by
  cases s with
  | outside => simp [place?]
  | waiting entered lock => simp [place?]
  | holding entered lock => simp [place?]

theorem isInside_of_isHolding {destination : Path} {s : Standing}
    (h : s.isHolding destination = true) : s.isInside destination = true := by
  cases s with
  | holding held lock => exact h
  | outside => cases h
  | waiting entered lock => cases h

/-- Whether what a render has to do with locks is confined to one destination. -/
def Concerns (s : Standing) (destination : Path) : Prop :=
  ∀ entered lock, s.place? = some (entered, lock) → entered = destination

/-- Who is concerned with one destination is inside of no other one. -/
theorem Concerns.isInside_of_ne {s : Standing} {destination other : Path}
    (h : s.Concerns destination) (ne : other ≠ destination) : s.isInside other = false := by
  rw [Bool.eq_false_iff]
  intro inside
  obtain ⟨lock, place⟩ := isInside_iff.mp inside
  exact ne (h other lock place)

theorem Concerns.isHolding_of_ne {s : Standing} {destination other : Path}
    (h : s.Concerns destination) (ne : other ≠ destination) : s.isHolding other = false := by
  rw [Bool.eq_false_iff]
  intro holding
  have inside := isInside_of_isHolding holding
  rw [h.isInside_of_ne ne] at inside
  cases inside

end Standing

open Standing

/-- What a lock has to say of the number of renders that are inside and of those that hold it. -/
def DestinationLock.Counts (inside holding : Nat) : Option DestinationLock → Prop
  | none => inside = 0 ∧ holding = 0
  | some l => l.users = inside ∧ 0 < inside ∧ holding = if l.holder.isSome then 1 else 0

/-- The count after one member of a list has been replaced by another. -/
theorem countP_set_add {α : Type} (p : α → Bool) {l : List α} {i : Nat} {a : α} (b : α)
    (h : l[i]? = some a) : (l.set i b).countP p + (if p a then 1 else 0) =
      l.countP p + if p b then 1 else 0 := by
  obtain ⟨below, rfl⟩ := List.getElem?_eq_some_iff.mp h
  have counted : p l[i] = true → 0 < l.countP p := fun here =>
    List.countP_pos_iff.mpr ⟨l[i], List.getElem_mem below, here⟩
  rw [List.countP_set below]
  split
  next here =>
    have := counted here
    omega
  next => omega

namespace LockTable

/-- A table that agrees with where all renders stand. -/
structure Tallies (table : LockTable) (standings : List Standing) : Prop where
  kept : table.WellKept
  shared : ∀ s ∈ standings, ∀ destination lock, s.place? = some (destination, lock) →
    table.find? destination = some lock
  counts : ∀ destination, DestinationLock.Counts (standings.countP (·.isInside destination))
    (standings.countP (·.isHolding destination)) (table.inCharge? destination)

/-- A table that differs from another one at one destination at most. -/
def SameElsewhere (table next : LockTable) (destination : Path) : Prop :=
  ∀ other, other ≠ destination →
    next.find? other = table.find? other ∧ next.inCharge? other = table.inCharge? other

variable {table next : LockTable} {standings : List Standing} {destination : Path} {lock : Nat}
  {ticket : Ticket} {s s' : Standing}

/-- What a render does at one destination has to be accounted for there only. -/
theorem Tallies.set (h : table.Tallies standings) (found : standings[ticket]? = some s)
    (kept : next.WellKept) (elsewhere : table.SameElsewhere next destination)
    (before : s.Concerns destination) (after : s'.Concerns destination)
    (shared : ∀ other ∈ standings.set ticket s', ∀ lock,
      other.place? = some (destination, lock) → next.find? destination = some lock)
    (counts : DestinationLock.Counts ((standings.set ticket s').countP (·.isInside destination))
      ((standings.set ticket s').countP (·.isHolding destination))
      (next.inCharge? destination)) :
    next.Tallies (standings.set ticket s') := by
  refine ⟨kept, ?_, ?_⟩
  · intro other member entered lock place
    by_cases same : entered = destination
    · subst same
      exact shared other member lock place
    · rw [(elsewhere entered same).1]
      rcases List.mem_or_eq_of_mem_set member with old | rfl
      · exact h.shared other old entered lock place
      · exact absurd (after entered lock place) same
  · intro entered
    -- Elsewhere nobody has come or gone, so the counts are what they were.
    by_cases same : entered = destination
    · exact same ▸ counts
    · have inside := countP_set_add (·.isInside entered) s' found
      have holding := countP_set_add (·.isHolding entered) s' found
      simp only [before.isInside_of_ne same, after.isInside_of_ne same] at inside
      simp only [before.isHolding_of_ne same, after.isHolding_of_ne same] at holding
      rw [(elsewhere entered same).2, Nat.add_right_cancel inside, Nat.add_right_cancel holding]
      exact h.counts entered

theorem tallies_empty (n : Nat) : empty.Tallies (List.replicate n .outside) := by
  refine ⟨wellKept_empty, ?_, ?_⟩
  · intro s member destination lock place
    rw [List.eq_of_mem_replicate member] at place
    cases place
  · intro destination
    constructor
    · exact List.countP_eq_zero.mpr fun s member => by
        rw [List.eq_of_mem_replicate member]
        exact Bool.false_ne_true
    · exact List.countP_eq_zero.mpr fun s member => by
        rw [List.eq_of_mem_replicate member]
        exact Bool.false_ne_true

theorem Tallies.find?_eq (h : table.Tallies standings) (found : standings[ticket]? = some s)
    (place : s.place? = some (destination, lock)) : table.find? destination = some lock :=
  h.shared s (List.mem_of_getElem? found) destination lock place

/-- The lock in charge where some render is inside. -/
theorem Tallies.exists_lock (h : table.Tallies standings)
    (found : table.find? destination = some lock) : ∃ l, table.locks[lock]? = some l ∧
      table.inCharge? destination = some l ∧
      l.users = standings.countP (·.isInside destination) ∧
      0 < standings.countP (·.isInside destination) ∧
      standings.countP (·.isHolding destination) = if l.holder.isSome then 1 else 0 := by
  have here := List.getElem?_eq_getElem (h.kept.made destination lock found)
  have charge : table.inCharge? destination = table.locks[lock]? := by
    rw [inCharge?, found, Option.bind_some]
  have counts := h.counts destination
  rw [charge, here] at counts
  exact ⟨_, here, charge.trans here, counts⟩

/-- A destination has a lock exactly while somebody is inside. -/
theorem Tallies.isSome_find?_iff (h : table.Tallies standings) (destination : Path) :
    (table.find? destination).isSome = true ↔
      ∃ s ∈ standings, s.isInside destination = true := by
  constructor
  · intro found
    obtain ⟨lock, found⟩ := Option.isSome_iff_exists.mp found
    obtain ⟨_, _, _, _, used, _⟩ := h.exists_lock found
    exact List.countP_pos_iff.mp used
  · rintro ⟨s, member, inside⟩
    obtain ⟨lock, place⟩ := isInside_iff.mp inside
    rw [h.shared s member destination lock place]
    rfl

theorem Tallies.users_eq (h : table.Tallies standings)
    (found : table.find? destination = some lock) :
    table.users lock = standings.countP (·.isInside destination) := by
  obtain ⟨l, here, _, counted, _⟩ := h.exists_lock found
  rw [LockTable.users, here]
  exact counted

/-- At most one task holds the lock of a destination. -/
theorem Tallies.countP_isHolding_le_one (h : table.Tallies standings) (destination : Path) :
    standings.countP (·.isHolding destination) ≤ 1 := by
  have counts := h.counts destination
  cases charge : table.inCharge? destination with
  | none =>
    rw [charge] at counts
    rw [counts.2]
    exact Nat.zero_le 1
  | some l =>
    rw [charge] at counts
    rw [counts.2.2]
    split <;> omega

/-- The lock of who is writing has a holder. -/
theorem Tallies.exists_holder (h : table.Tallies standings) (member : s ∈ standings)
    (writes : s.isHolding destination = true) : ∃ lock l,
      table.find? destination = some lock ∧ table.locks[lock]? = some l ∧
        l.holder.isSome = true := by
  obtain ⟨lock, place⟩ := isInside_iff.mp (isInside_of_isHolding writes)
  have found := h.shared s member destination lock place
  obtain ⟨l, here, _, _, _, holders⟩ := h.exists_lock found
  refine ⟨lock, l, found, here, ?_⟩
  -- A lock without a holder would count nobody.
  have some_holds : 0 < standings.countP (·.isHolding destination) :=
    List.countP_pos_iff.mpr ⟨s, member, writes⟩
  by_contra free
  rw [if_neg free] at holders
  omega

/-- A lock that nobody is inside has been removed. -/
theorem Tallies.current_eq_nil (h : table.Tallies standings)
    (outside : ∀ s ∈ standings, s = .outside) : table.current = [] := by
  rw [← List.map_eq_nil_iff (f := (·.1)), List.eq_nil_iff_forall_not_mem]
  intro destination listed
  have found : (table.find? destination).isSome = true := by
    by_contra missing
    rw [Option.not_isSome_iff_eq_none, find?_eq_none] at missing
    exact missing listed
  obtain ⟨s, member, within⟩ := (h.isSome_find?_iff destination).mp found
  rw [outside s member] at within
  cases within

/-! ### The moves -/

/-- How a render moves among the locks: it comes to a lock and waits there, lines up, gets hold of
the lock when that is free or its turn has come, and leaves it. -/
inductive Move (ticket : Ticket) : LockTable × Standing → LockTable × Standing → Prop
  | enter (table : LockTable) (destination : Path) : Move ticket (table, .outside)
      ((table.enter destination).1, .waiting destination (table.enter destination).2)
  | enqueue (table : LockTable) (destination : Path) (lock : Nat) :
    Move ticket (table, .waiting destination lock)
      (table.enqueue lock ticket, .waiting destination lock)
  | hold (table : LockTable) (destination : Path) (lock : Nat)
    (free : table.isTaken lock = false) : Move ticket (table, .waiting destination lock)
      (table.hold lock ticket, .holding destination lock)
  | dequeue (table : LockTable) (destination : Path) (lock : Nat)
    (turn : table.isNext lock ticket = true) : Move ticket (table, .waiting destination lock)
      (table.dequeue lock ticket, .holding destination lock)
  | leave (table : LockTable) (destination : Path) (lock : Nat) :
    Move ticket (table, .holding destination lock) (table.leave lock destination, .outside)

theorem concerns_outside : Standing.outside.Concerns destination := by
  rintro _ _ ⟨⟩

theorem concerns_of_place? (place : s.place? = some (destination, lock)) :
    s.Concerns destination := by
  intro entered other entered_place
  rw [place] at entered_place
  cases entered_place
  rfl

/-- Entering keeps the tally. -/
theorem Tallies.enter (h : table.Tallies standings) (found : standings[ticket]? = some .outside)
    (destination : Path) : (table.enter destination).1.Tallies
      (standings.set ticket (.waiting destination (table.enter destination).2)) := by
  refine h.set found (h.kept.enter destination) ?_ concerns_outside
    (concerns_of_place? rfl) ?_ ?_
  · intro other ne
    exact ⟨find?_enter_of_ne ne, h.kept.inCharge?_enter_of_ne ne⟩
  · intro other member lock place
    rcases List.mem_or_eq_of_mem_set member with old | rfl
    · exact find?_enter_of_some (h.shared other old destination lock place)
    · cases place
      exact find?_enter_self
  · have inside := countP_set_add (·.isInside destination)
      (.waiting destination (table.enter destination).2) found
    have holding := countP_set_add (·.isHolding destination)
      (.waiting destination (table.enter destination).2) found
    have counts := h.counts destination
    simp only [isInside_outside, isInside_waiting, decide_true, if_true, Bool.false_eq_true,
      if_false] at inside
    simp only [isHolding_outside, isHolding_waiting, Bool.false_eq_true, if_false] at holding
    rw [h.kept.inCharge?_enter_self]
    -- A lock is made for the first that enters, and counts one more user for any other.
    cases before : table.inCharge? destination with
    | none =>
      rw [before] at counts
      obtain ⟨none_inside, none_holding⟩ := counts
      refine ⟨?_, ?_, ?_⟩
      · simp only [joined]
        omega
      · omega
      · simp only [joined, Option.isSome_none, Bool.false_eq_true, if_false]
        omega
    | some l =>
      rw [before] at counts
      obtain ⟨users, used, holders⟩ := counts
      refine ⟨?_, ?_, ?_⟩
      · simp only [joined]
        omega
      · omega
      · exact (Nat.add_right_cancel holding).trans holders

/-- A render that stays at its lock changes nothing but that lock. -/
theorem Tallies.update (h : table.Tallies standings) (found : standings[ticket]? = some s)
    (place : s.place? = some (destination, lock)) (place' : s'.place? = some (destination, lock))
    (f : DestinationLock → DestinationLock) (users : ∀ l, (f l).users = l.users)
    (holding : ∀ l, table.locks[lock]? = some l →
      (if (f l).holder.isSome then 1 else 0) + (if s.isHolding destination then 1 else 0) =
        (if l.holder.isSome then 1 else 0) + if s'.isHolding destination then 1 else 0) :
    (table.update lock f).Tallies (standings.set ticket s') := by
  have there := h.find?_eq found place
  obtain ⟨l, here, charge, counted, used, holders⟩ := h.exists_lock there
  refine h.set found (h.kept.update lock f) ?_ (concerns_of_place? place)
    (concerns_of_place? place') ?_ ?_
  · intro other ne
    exact ⟨rfl, h.kept.inCharge?_update_of_ne there ne f⟩
  · intro other member lock' place''
    rcases List.mem_or_eq_of_mem_set member with old | rfl
    · exact h.shared other old destination lock' place''
    · rw [place'] at place''
      cases place''
      exact there
  · have inside := countP_set_add (·.isInside destination) s' found
    have held := countP_set_add (·.isHolding destination) s' found
    -- The render is inside before and after, so only the holders are counted anew.
    have within : s.isInside destination = true := isInside_iff.mpr ⟨lock, place⟩
    have within' : s'.isInside destination = true := isInside_iff.mpr ⟨lock, place'⟩
    have change := holding l here
    simp only [within, within', if_true] at inside
    rw [inCharge?_update_self there, charge]
    refine ⟨?_, ?_, ?_⟩
    · rw [users]
      omega
    · omega
    · omega

theorem holder_of_isTaken {l : DestinationLock} (here : table.locks[lock]? = some l)
    (free : table.isTaken lock = false) : l.holder.isSome = false := by
  rw [isTaken, here, Bool.or_eq_false_iff] at free
  exact free.1

theorem holder_of_isNext {l : DestinationLock} (here : table.locks[lock]? = some l)
    (turn : table.isNext lock ticket = true) : l.holder.isSome = false := by
  simp only [isNext, here, Bool.and_eq_true] at turn
  rw [← Option.not_isSome, Bool.not_eq_true'] at turn
  exact turn.1

/-- Leaving keeps the tally. -/
theorem Tallies.leave (h : table.Tallies standings)
    (found : standings[ticket]? = some (.holding destination lock)) :
    (table.leave lock destination).Tallies (standings.set ticket .outside) := by
  have there := h.find?_eq found rfl
  obtain ⟨l, here, charge, users, used, holders⟩ := h.exists_lock there
  have inside := countP_set_add (·.isInside destination) .outside found
  have holding := countP_set_add (·.isHolding destination) .outside found
  simp only [isInside_outside, isInside_holding, decide_true, if_true, Bool.false_eq_true,
    if_false] at inside
  simp only [isHolding_outside, isHolding_holding, decide_true, if_true, Bool.false_eq_true,
    if_false] at holding
  have fewer : (freed l).users = (standings.set ticket .outside).countP
      (·.isInside destination) := by
    change l.users - 1 = _
    omega
  refine h.set found (h.kept.leave there) ?_ (concerns_of_place? rfl) concerns_outside ?_ ?_
  · intro other ne
    exact ⟨find?_leave_of_ne there ne, h.kept.inCharge?_leave_of_ne there ne⟩
  · intro other member lock' place
    -- Whoever is still inside is a user, so the lock stays in charge.
    have still : (freed l).users ≠ 0 := by
      rw [fewer]
      exact Nat.ne_of_gt (List.countP_pos_iff.mpr
        ⟨other, member, isInside_iff.mpr ⟨lock', place⟩⟩)
    rw [find?_leave_self there here, if_neg still]
    rcases List.mem_or_eq_of_mem_set member with old | rfl
    · rw [← there]
      exact h.shared other old destination lock' place
    · cases place
  · have nobody : (standings.set ticket .outside).countP (·.isHolding destination) = 0 := by
      split at holders <;> omega
    rw [inCharge?_leave_self there here, nobody]
    split
    next last => exact ⟨by rw [← fewer, last], rfl⟩
    next more => exact ⟨fewer, by omega, rfl⟩

/-- Every move keeps the count. -/
theorem Tallies.move (h : table.Tallies standings) (found : standings[ticket]? = some s)
    (move : Move ticket (table, s) (next, s')) : next.Tallies (standings.set ticket s') := by
  cases move with
  | enter _ destination => exact h.enter found destination
  | enqueue _ destination lock =>
    exact h.update found rfl rfl _ (fun _ => rfl) (fun _ _ => rfl)
  | hold _ destination lock free =>
    refine h.update found rfl rfl _ (fun _ => rfl) fun l here => ?_
    simp [holder_of_isTaken here free, isHolding]
  | dequeue _ destination lock turn =>
    refine h.update found rfl rfl _ (fun _ => rfl) fun l here => ?_
    simp [holder_of_isNext here turn, isHolding]
  | leave _ destination lock => exact h.leave found

/-- Any number of moves of one render, one after the other. -/
abbrev Moves (ticket : Ticket) := Relation.ReflTransGen (Move ticket)

/-- Every chain of moves keeps the tally. -/
theorem Tallies.moves {after : LockTable × Standing} (h : table.Tallies standings)
    (found : standings[ticket]? = some s) (moves : Moves ticket (table, s) after) :
    after.1.Tallies (standings.set ticket after.2) := by
  induction moves with
  | refl =>
    obtain ⟨below, rfl⟩ := List.getElem?_eq_some_iff.mp found
    rwa [List.set_getElem_self]
  | tail _ move ih =>
    have below := (List.getElem?_eq_some_iff.mp found).1
    have moved := ih.move (List.getElem?_set_self below) move
    rwa [List.set_set] at moved

end LockTable

/-! ### The moves of a task -/

/-- Where a task that stands still stands to the locks: it waits in its lock's queue, or holds the
lock while its engine works. -/
def Phase.standing : Phase → Standing
  | .queued job lock => .waiting job.destination lock
  | .encoding job lock _ _ => .holding job.destination lock
  | _ => .outside

namespace Renderer

open LockTable

variable (r : Renderer) (ticket : Ticket)

/-- Steps that take a render from one place among the locks to another by moves. -/
def MovesTo (scene : Scene) (standing : Standing) (next : Scene × Phase) : Prop :=
  Moves ticket (scene.site.locks, standing) (next.1.site.locks, next.2.standing)

variable {ticket}

/-- What happens outside of the locks is no move. -/
theorem movesTo_of_locks {scene : Scene} {next : Scene × Phase}
    (locks : next.1.site.locks = scene.site.locks) (phase : next.2.standing = .outside) :
    MovesTo ticket scene .outside next := by
  rw [MovesTo, locks, phase]

theorem MovesTo.of_locks {scene begun : Scene} {standing : Standing} {next : Scene × Phase}
    (h : MovesTo ticket begun standing next) (locks : begun.site.locks = scene.site.locks) :
    MovesTo ticket scene standing next := by
  rwa [MovesTo, locks] at h

/-- A failure moves nobody. -/
theorem movesTo_fail (e : Failure) (scene : Scene) :
    MovesTo ticket scene .outside (r.fail e scene) := by
  obtain ⟨told, eq, site⟩ := r.fail_eq e scene
  rw [eq]
  exact movesTo_of_locks (by rw [site]) rfl

theorem moves_leave (job : Job) (lock : Nat) (scene : Scene) :
    Moves ticket (scene.site.locks, .holding job.destination lock)
      ((leave job lock scene).site.locks, .outside) :=
  .single (.leave scene.site.locks job.destination lock)

theorem movesTo_finishEncoding (job : Job) (lock : Nat) (output : Path) (scene : Scene) :
    MovesTo ticket scene (.holding job.destination lock)
      (r.finishEncoding job lock output scene) := by
  have ends := r.finishEncoding_ends job lock output scene
  rw [MovesTo, ends.phase, ends.locks]
  exact moves_leave job lock scene

/-- A render that has got its lock keeps it while the engine works, and else leaves it. -/
theorem movesTo_startEncoding (job : Job) (lock : Nat) (scene : Scene) :
    MovesTo ticket scene (.holding job.destination lock) (r.startEncoding job lock scene) := by
  obtain ⟨told, eq, site⟩ := r.tell_eq .rendering scene
  rw [startEncoding, eq]
  refine MovesTo.of_locks ?_ (congrArg Site.locks site)
  -- Each failure leaves the lock before it is told of.
  cases r.check .rendering with
  | some e => exact (moves_leave job lock told).trans (r.movesTo_fail e (leave job lock told))
  | none =>
    dsimp only
    cases r.storage.tempPath job.destination with
    | error e =>
      exact (moves_leave job lock told).trans (r.movesTo_fail (.file e) (leave job lock told))
    | ok output =>
      dsimp only
      cases r.engine.turns (call job output) with
      | zero => exact (r.movesTo_finishEncoding job lock output _).of_locks rfl
      | succ turns => exact .refl

/-- Who has compiled enters, and holds the lock at once or waits for it. -/
theorem movesTo_seekLock (job : Job) (scene : Scene) :
    MovesTo ticket scene .outside (r.seekLock ticket job scene) := by
  have entered : Moves ticket (scene.site.locks, .outside)
      ((scene.site.locks.enter job.destination).1,
        .waiting job.destination (scene.site.locks.enter job.destination).2) :=
    .single (.enter scene.site.locks job.destination)
  simp only [seekLock]
  split
  next taken => exact entered.tail (.enqueue _ job.destination _)
  next free =>
    rw [Bool.not_eq_true] at free
    exact (entered.tail (.hold _ job.destination _ free)).trans
      (r.movesTo_startEncoding job _ (scene.withLocks _))

/-- After the survey a task fails outside, or seeks the lock. -/
theorem movesTo_finishProbing (destination : Path) (timeline : Timeline Binary64)
    (survey : Survey) (scene : Scene) :
    MovesTo ticket scene .outside
      (r.finishProbing ticket destination timeline survey scene) := by
  simp only [finishProbing]
  -- No lock is asked for before the timeline has been compiled.
  cases survey.cache with
  | error e =>
    obtain ⟨told, eq, site⟩ := r.conclude_eq e (scene.say survey.warnings)
    dsimp only
    rw [eq]
    exact movesTo_of_locks (congrArg Site.locks site) rfl
  | ok cache =>
    obtain ⟨told, eq, site⟩ := r.tell_eq .compiling (scene.say survey.warnings)
    dsimp only
    rw [Renderer.enter, eq]
    refine MovesTo.of_locks ?_ (congrArg Site.locks site)
    cases r.check .compiling with
    | some e => exact r.movesTo_fail e told
    | none =>
      simp only [compile]
      split
      next e _ => exact r.movesTo_fail _ (told.say _)
      next graph _ => exact r.movesTo_seekLock _ (told.say _)

theorem movesTo_arrive (request : RenderRequest) (scene : Scene) :
    MovesTo ticket scene .outside (r.arrive ticket request scene) := by
  obtain ⟨told, eq, site⟩ := r.tell_eq .idle scene
  rw [arrive, eq]
  refine MovesTo.of_locks ?_ (congrArg Site.locks site)
  cases r.check .idle with
  | some e => exact .refl
  | none =>
    dsimp only
    cases r.plan told.site.tree request with
    | error e => exact r.movesTo_fail e told
    | ok found =>
      obtain ⟨destination, timeline⟩ := found
      obtain ⟨probed, eq, site⟩ := r.tell_eq .probing told
      dsimp only
      rw [Renderer.enter, eq]
      refine MovesTo.of_locks ?_ (congrArg Site.locks site)
      cases r.check .probing with
      | some e => exact r.movesTo_fail e probed
      | none =>
        simp only [startProbing]
        split
        -- Without sources the render goes on to its compile in the same step.
        · exact r.movesTo_finishProbing destination timeline _ probed
        · exact .refl

/-- Every step of a task is a chain of moves. -/
theorem movesTo_proceed? {move : Task.Move} {scene : Scene} {phase : Phase}
    {next : Scene × Phase} (h : r.proceed? ticket move scene phase = some next) :
    MovesTo ticket scene phase.standing next := by
  cases proceeds_of_proceed? h with
  | arrive request => exact r.movesTo_arrive request scene
  | finishProbing destination timeline survey decided =>
    exact r.movesTo_finishProbing destination timeline survey scene
  | probe destination timeline survey event after happens =>
    exact movesTo_of_locks (site_of_probe? happens).2 rfl
  | startEncoding job lock turn =>
    exact .head (.dequeue scene.site.locks job.destination lock turn)
      (r.movesTo_startEncoding job lock (scene.withLocks _))
  | finishEncoding job lock output => exact r.movesTo_finishEncoding job lock output scene
  | continueEncoding job lock output turns => exact .refl
  | trail answer survey event after happens =>
    exact movesTo_of_locks (site_of_probe? happens).2 rfl

end Renderer

/-! ### All tasks together -/

namespace Batch

open LockTable

/-- Where the tasks of a batch stand to the locks. -/
def standings (batch : Batch) : List Standing := batch.tasks.map (·.phase.standing)

/-- In the beginning nobody is inside. -/
theorem tallies_ofRequests (tree : FileTree) (journal : Journal) (requests : List RenderRequest) :
    (ofRequests ⟨tree, .empty, journal⟩ requests).site.locks.Tallies
      (ofRequests ⟨tree, .empty, journal⟩ requests).standings := by
  have outside : (ofRequests ⟨tree, .empty, journal⟩ requests).standings =
      List.replicate requests.length .outside := by
    rw [standings, ofRequests, List.map_map]
    exact List.map_const'
  rw [outside]
  exact tallies_empty requests.length

/-- Every step of a batch keeps the count. -/
theorem tallies_step? {r : Renderer} {batch next : Batch} {ticket : Ticket} {move : Task.Move}
    (h : batch.site.locks.Tallies batch.standings)
    (step : batch.step? r ticket move = some next) : next.site.locks.Tallies next.standings := by
  obtain ⟨task, scene, phase, found, proceeded, rfl⟩ := exists_of_step? step
  have stands : batch.standings[ticket]? = some task.phase.standing := by
    rw [standings, List.getElem?_map, found]
    rfl
  have moved := h.moves stands (r.movesTo_proceed? proceeded)
  change scene.site.locks.Tallies ((batch.tasks.set ticket _).map (·.phase.standing))
  rw [List.map_set]
  exact moved

/-- Every schedule keeps the tally. -/
theorem tallies_after {r : Renderer} {batch : Batch}
    (schedule : List (Ticket × Task.Move))
    (h : batch.site.locks.Tallies batch.standings) :
    (batch.after r schedule).site.locks.Tallies (batch.after r schedule).standings :=
  after_of_step? (P := fun batch => batch.site.locks.Tallies batch.standings) tallies_step?
    schedule h

/-- What holds of the locks of a batch at any moment: who is inside has one lock, which is in the
table as long as anybody is inside and counts them all; one task at most writes to a destination,
and as long as it does no other one comes to write there. -/
structure Serialized (batch : Batch) : Prop where
  present : ∀ destination, (batch.site.locks.find? destination).isSome = true ↔
    ∃ task ∈ batch.tasks, task.phase.standing.isInside destination = true
  single : (batch.site.locks.current.map (·.1)).Nodup
  shared : ∀ task ∈ batch.tasks, ∀ destination lock,
    task.phase.standing.place? = some (destination, lock) →
      batch.site.locks.find? destination = some lock
  users : ∀ destination lock, batch.site.locks.find? destination = some lock →
    batch.site.locks.users lock =
      batch.tasks.countP fun task => task.phase.standing.isInside destination
  exclusive : ∀ destination,
    (batch.tasks.countP fun task => task.phase.standing.isHolding destination) ≤ 1
  /-- While a task writes to a destination a newcomer has to wait, and nobody's turn comes. -/
  closed : ∀ destination, ∀ task ∈ batch.tasks,
    task.phase.standing.isHolding destination = true →
      (batch.site.locks.enter destination).1.isTaken
          (batch.site.locks.enter destination).2 = true ∧
        ∀ lock, batch.site.locks.find? destination = some lock →
          ∀ ticket, batch.site.locks.isNext lock ticket = false
  removed : batch.site.locks.missed = 0
  idle : (∀ task ∈ batch.tasks, task.phase.standing = .outside) → batch.site.locks.current = []

theorem serialized_of_tallies {batch : Batch} (h : batch.site.locks.Tallies batch.standings) :
    batch.Serialized := by
  -- The tallies are of standings, and each of these is one task's.
  refine ⟨?_, h.kept.keys, ?_, ?_, ?_, ?_, h.kept.missed, ?_⟩
  · intro destination
    rw [h.isSome_find?_iff, standings]
    simp only [List.mem_map, exists_exists_and_eq_and]
  · intro task member destination lock place
    exact h.shared _ (List.mem_map_of_mem member) destination lock place
  · intro destination lock found
    rw [h.users_eq found, standings, List.countP_map]
    rfl
  · intro destination
    have most := h.countP_isHolding_le_one destination
    rwa [standings, List.countP_map] at most
  · intro destination task member writes
    obtain ⟨lock, l, found, here, held⟩ := h.exists_holder (List.mem_map_of_mem member) writes
    constructor
    · rw [enter_of_some found]
      simp [isTaken, LockTable.update, here, held]
    · intro lock' found' ticket
      cases found.symm.trans found'
      simp [isNext, here, Option.ne_none_iff_isSome.mpr held]
  · exact fun outside => h.current_eq_nil (List.forall_mem_map.mpr outside)

/-- Whatever the requests, the collaborators and the order of the steps, renders that share a
pipeline take turns at each destination, and leave no lock behind. -/
theorem serialized_after (r : Renderer) (tree : FileTree) (journal : Journal)
    (requests : List RenderRequest) (schedule : List (Ticket × Task.Move)) :
    ((ofRequests ⟨tree, .empty, journal⟩ requests).after r schedule).Serialized :=
  serialized_of_tallies (tallies_after schedule (tallies_ofRequests tree journal requests))

end Batch

end Montage
