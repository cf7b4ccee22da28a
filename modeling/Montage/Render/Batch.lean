import Montage.Render.Progress

/-!
# Batches

Tasks that run together share one site, and make their moves in any order. A fair run lets every
task on once in each turn; a task that waits for a lock is let on again when the lock is free for
it, and one that surveys its sources goes on in beats. The run is over some turns after the last
task has been answered.
-/
namespace Montage

/-- The answer of a task that has one: the result, or the failure of the observer in its place. -/
def Task.answer? (task : Task) : Option (Except Failure RenderResult) :=
  match task.phase with
  | .trailing answer _ => some answer
  | .finished answer => some answer
  | _ => none

def Task.survey? (task : Task) : Option Survey :=
  match task.phase with
  | .probing _ _ survey => some survey
  | .trailing _ survey => some survey
  | _ => none

/-- The move of a task that is let on with no others under way: its survey goes on in rounds. -/
def Task.next (task : Task) : Task.Move :=
  match task.phase with
  | .probing _ _ survey => (survey.next?.map .probe).getD .resume
  | _ => .resume

/-- A task let on until it is answered or has to wait for others. -/
def Renderer.settle (r : Renderer) (ticket : Ticket) (site : Site) (task : Task) : Site × Task :=
  if task.answer?.isSome then (site, task)
  else
    match _step : r.step? ticket task.next site task with
    | some (site, task) => settle r ticket site task
    | none => (site, task)
termination_by (task.phase.rank, task.phase.turnsLeft)
decreasing_by
  rcases step?_lt _step with lt | ⟨eq, lt⟩
  · exact Prod.Lex.left _ _ lt
  · rw [eq]; exact Prod.Lex.right _ lt

/-- One request rendered with no others under way. -/
def Renderer.render (r : Renderer) (request : RenderRequest) (site : Site) : Site × Task :=
  r.settle 0 site (.ofRequest request)

structure Batch where
  site : Site
  /-- A task's place is its ticket. -/
  tasks : List Task

namespace Batch

def ofRequests (site : Site) (requests : List RenderRequest) : Batch :=
  ⟨site, requests.map .ofRequest⟩

/-- The batch after a move of one task, if that move can happen. -/
def step? (r : Renderer) (batch : Batch) (ticket : Ticket) (move : Task.Move) : Option Batch :=
  (batch.tasks[ticket]?).bind fun task =>
    (r.step? ticket move batch.site task).map fun (site, task) =>
      ⟨site, batch.tasks.set ticket task⟩

/-- The batch after moves of certain tasks, one after the other; those that cannot happen are
passed over. -/
def after (r : Renderer) (batch : Batch) (schedule : List (Ticket × Task.Move)) : Batch :=
  schedule.foldl (fun batch (ticket, move) => (batch.step? r ticket move).getD batch) batch

def total (f : Phase → Nat) (batch : Batch) : Nat :=
  batch.tasks.foldr (fun task sum => f task.phase + sum) 0

theorem foldr_add_set {α : Type} (f : α → Nat) {l : List α} {i : Nat} {a : α} (b : α)
    (h : l[i]? = some a) :
    (l.set i b).foldr (fun c sum => f c + sum) 0 + f a =
      l.foldr (fun c sum => f c + sum) 0 + f b := by
  induction l generalizing i with
  | nil => simp at h
  | cons c rest ih =>
    cases i with
    | zero =>
      simp only [List.getElem?_cons_zero, Option.some.injEq] at h
      subst h
      simp only [List.set_cons_zero, List.foldr_cons]
      omega
    | succ i =>
      have := ih (i := i) (by simpa using h)
      simp only [List.set_cons_succ, List.foldr_cons]
      omega

/-- One batch is nearer to its end than another. -/
def Nearer (next batch : Batch) : Prop :=
  next.total Phase.rank < batch.total Phase.rank ∨
    (next.total Phase.rank = batch.total Phase.rank ∧
      next.total Phase.turnsLeft < batch.total Phase.turnsLeft)

theorem Nearer.trans {a b c : Batch} (ab : Nearer a b) (bc : Nearer b c) : Nearer a c := by
  unfold Nearer at *
  omega

/-- Every move brings the batch as a whole nearer to its end. -/
theorem nearer_step? {r : Renderer} {batch next : Batch} {ticket : Ticket} {move : Task.Move}
    (h : batch.step? r ticket move = some next) : Nearer next batch := by
  simp only [step?, Option.bind_eq_some_iff, Option.map_eq_some_iff, Prod.exists] at h
  obtain ⟨task, found, site, task', stepped, rfl⟩ := h
  have ranks := foldr_add_set (fun t : Task => t.phase.rank) task' found
  have turns := foldr_add_set (fun t : Task => t.phase.turnsLeft) task' found
  simp only [Nearer, total]
  rcases Renderer.step?_lt stepped with lt | ⟨eq, lt⟩
  · left; omega
  · right; omega

/-! ### Fair runs -/

/-- A task that is to be let on, and how many beats its survey takes after the next one. -/
structure Entry where
  ticket : Ticket
  left : Nat

/-- The survey that a task has under way. -/
def survey? (batch : Batch) (ticket : Ticket) : Option Survey :=
  (batch.tasks[ticket]?).bind Task.survey?

/-- The moves of a task in one turn: it goes on, or all its probes start or finish that can. -/
def moves (batch : Batch) (entry : Entry) : List Task.Move :=
  match batch.survey? entry.ticket, entry.left % 3 with
  | some survey, 1 => survey.starts.map .probe
  | some survey, 2 => survey.finishes.map .probe
  | _, _ => [.resume]

/-- The batch after those of some moves of a task that can happen; nothing if none can. -/
def play? (r : Renderer) (batch : Batch) (ticket : Ticket) : List Task.Move → Option Batch
  | [] => none
  | move :: rest =>
    match batch.step? r ticket move with
    | none => play? r batch ticket rest
    | some next => some ((play? r next ticket rest).getD next)

/-- Whether a task has something to do. -/
def isReady (batch : Batch) (ticket : Ticket) : Bool :=
  match batch.tasks[ticket]? with
  | none => false
  | some task =>
    match task.phase with
    | .queued _ lock => batch.site.locks.isNext lock ticket
    | .trailing _ survey => survey.remaining ≠ 0
    | .finished _ => false
    | _ => true

/-- The tasks that have something to do and are not in a list. -/
def readyBeside (batch : Batch) (listed : List Ticket) : List Ticket :=
  (List.range batch.tasks.length).filter fun ticket =>
    batch.isReady ticket && !listed.contains ticket

/-- A task as it is listed after the turn of an entry, which has brought one batch to the next. -/
def entryAfter (batch next : Batch) (entry : Entry) (ticket : Ticket) : Entry :=
  match next.survey? ticket with
  | none => ⟨ticket, 0⟩
  | some survey =>
    if ticket = entry.ticket && (batch.survey? ticket).isSome then ⟨ticket, entry.left - 1⟩
    else ⟨ticket, survey.beats⟩

/-- The batch after one turn of each listed task, and the tasks listed for the next turn: a task is
listed when it has something to do after a turn, or when its survey has beats left. -/
def turn (r : Renderer) (batch : Batch) (later : List Entry) : List Entry → Batch × List Entry
  | [] => (batch, later)
  | entry :: rest =>
    match batch.play? r entry.ticket (batch.moves entry) with
    | none =>
      match entry.left with
      | 0 => turn r batch later rest
      | left + 1 => turn r batch (later ++ [⟨entry.ticket, left⟩]) rest
    | some next =>
      let ready := next.readyBeside ((rest ++ later).map Entry.ticket)
      turn r next (later ++ ready.map (batch.entryAfter next entry)) rest

/-- How many turns the entries of a list have at most as long as nothing happens. -/
def patience (listed : List Entry) : Nat :=
  listed.foldr (fun entry sum => entry.left + 1 + sum) 0

theorem patience_cons (entry : Entry) (rest : List Entry) :
    patience (entry :: rest) = entry.left + 1 + patience rest := rfl

theorem patience_append (listed others : List Entry) :
    patience (listed ++ others) = patience listed + patience others := by
  induction listed with
  | nil => exact (Nat.zero_add _).symm
  | cons entry rest ih =>
    rw [List.cons_append, patience_cons, patience_cons, ih]
    omega

theorem nearer_play? {r : Renderer} {batch next : Batch} {ticket : Ticket}
    {moves : List Task.Move} (h : batch.play? r ticket moves = some next) :
    Nearer next batch := by
  induction moves generalizing batch next with
  | nil => cases h
  | cons move rest ih =>
    simp only [play?] at h
    split at h
    · exact ih h
    next first step =>
      cases h
      cases later : first.play? r ticket rest with
      | none => exact nearer_step? step
      | some last => exact (ih later).trans (nearer_step? step)

/-- A turn brings the batch nearer to its end, or nothing happens and every entry has a turn
less. -/
theorem turn_nearer (r : Renderer) (batch : Batch) (later listed : List Entry) :
    ((batch.turn r later listed).1 = batch ∧
        patience (batch.turn r later listed).2 + listed.length ≤
          patience later + patience listed) ∨
      Nearer (batch.turn r later listed).1 batch := by
  induction listed generalizing batch later with
  | nil => exact .inl ⟨rfl, Nat.le_refl _⟩
  | cons entry rest ih =>
    -- The task of the entry plays, or it cannot move now and the entry has a turn less.
    simp only [turn, patience_cons, List.length_cons]
    split
    · split
      next =>
        rcases ih batch later with ⟨same, fewer⟩ | nearer
        · exact .inl ⟨same, by omega⟩
        · exact .inr nearer
      next left passes =>
        rcases ih batch (later ++ [⟨entry.ticket, left⟩]) with ⟨same, fewer⟩ | nearer
        · have single : patience [⟨entry.ticket, left⟩] = left + 1 := rfl
          rw [patience_append, single] at fewer
          exact .inl ⟨same, by omega⟩
        · exact .inr nearer
    next next played =>
      -- The rest of the turn leaves the batch as it is, or brings it nearer still.
      right
      rcases ih next (later ++ (next.readyBeside ((rest ++ later).map Entry.ticket)).map
          (batch.entryAfter next entry)) with ⟨same, _⟩ | nearer
      · rw [same]
        exact nearer_play? played
      · exact nearer.trans (nearer_play? played)

/-- The batch after so many turns. -/
def turns (r : Renderer) (batch : Batch) (listed : List Entry) : Nat → Batch
  | 0 => batch
  | n + 1 =>
    let (next, later) := batch.turn r [] listed
    turns r next later n

/-- How many turns pass between the last answer and the end of a run. -/
def lastTurns : Nat := 3

def isAnswered (batch : Batch) : Bool := batch.tasks.all (·.answer?.isSome)

/-- The batch let on from the listed tasks. -/
def runFrom (r : Renderer) (batch : Batch) (listed : List Entry) : Batch :=
  if listed.isEmpty then batch
  else if batch.isAnswered then batch.turns r listed lastTurns
  else
    match _turn : batch.turn r [] listed with
    | (next, later) => runFrom r next later
termination_by (batch.total Phase.rank, batch.total Phase.turnsLeft, patience listed)
decreasing_by
  rename_i nonempty _
  have some : 0 < listed.length := List.length_pos_iff.mpr (by simpa using nonempty)
  rcases turn_nearer r batch [] listed with ⟨same, fewer⟩ | nearer
  · simp only [_turn] at same fewer
    have none : patience [] = 0 := rfl
    rw [same]
    exact Prod.Lex.right _ (Prod.Lex.right _ (by omega))
  · rw [_turn] at nearer
    rcases nearer with lt | ⟨eq, lt⟩
    · exact Prod.Lex.left _ _ lt
    · rw [eq]; exact Prod.Lex.right _ (Prod.Lex.left _ _ lt)

/-- The batch run fairly from the first task on. -/
def run (r : Renderer) (batch : Batch) : Batch :=
  batch.runFrom r ((batch.readyBeside []).map (⟨·, 0⟩))

end Batch

end Montage
