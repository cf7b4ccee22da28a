import Montage.Gallery.Path

/-!
# Destination locks

Renders to one destination take turns. The first render that comes for a destination makes its
lock, later ones share it and wait in the order in which they came, and the last one to leave
removes it from the table.
-/
namespace Montage

/-- The number of a render among those that run together. -/
abbrev Ticket := Nat

structure DestinationLock where
  /-- How many renders hold the lock or wait for it. -/
  users : Nat
  holder : Option Ticket
  queue : List Ticket
deriving DecidableEq

structure LockTable where
  /-- All locks made so far; a lock's place is its identity. -/
  locks : List DestinationLock
  /-- The lock in charge of each destination that is in use. -/
  current : List (Path × Nat)
  /-- How often a lock without users was to be removed from the table and was not found there. -/
  missed : Nat
deriving DecidableEq

namespace LockTable

def empty : LockTable := ⟨[], [], 0⟩

/-- The identity of the lock in charge of a destination. -/
def find? (table : LockTable) (destination : Path) : Option Nat :=
  (table.current.find? (·.1 = destination)).map (·.2)

def update (table : LockTable) (lock : Nat) (f : DestinationLock → DestinationLock) : LockTable :=
  { table with locks := table.locks.modify lock f }

/-- A further user of the lock of a destination; the lock is made if there is none. -/
def enter (table : LockTable) (destination : Path) : LockTable × Nat :=
  match table.find? destination with
  | some lock => (table.update lock fun l => { l with users := l.users + 1 }, lock)
  | none =>
    ({ table with
        locks := table.locks ++ [⟨1, none, []⟩]
        current := table.current ++ [(destination, table.locks.length)] },
      table.locks.length)

/-- Whether a newcomer has to wait: a lock that is free goes to those who wait for it. -/
def isTaken (table : LockTable) (lock : Nat) : Bool :=
  match table.locks[lock]? with
  | some l => l.holder.isSome || !l.queue.isEmpty
  | none => false

def hold (table : LockTable) (lock : Nat) (ticket : Ticket) : LockTable :=
  table.update lock fun l => { l with holder := some ticket }

def enqueue (table : LockTable) (lock : Nat) (ticket : Ticket) : LockTable :=
  table.update lock fun l => { l with queue := l.queue ++ [ticket] }

/-- Whether it is a waiting render's turn. -/
def isNext (table : LockTable) (lock : Nat) (ticket : Ticket) : Bool :=
  match table.locks[lock]? with
  | some l => l.holder.isNone && l.queue.head? = some ticket
  | none => false

/-- The lock passed to the render that has waited longest. -/
def dequeue (table : LockTable) (lock : Nat) (ticket : Ticket) : LockTable :=
  table.update lock fun l => { l with holder := some ticket, queue := l.queue.tail }

def users (table : LockTable) (lock : Nat) : Nat :=
  ((table.locks[lock]?).map DestinationLock.users).getD 0

/-- The table without a lock in charge of a destination. -/
def remove (table : LockTable) (destination : Path) : LockTable :=
  match table.find? destination with
  | some _ => { table with current := table.current.filter (·.1 ≠ destination) }
  | none => { table with missed := table.missed + 1 }

/-- The lock freed and left by its holder; a lock that nobody uses is no longer in charge. -/
def leave (table : LockTable) (lock : Nat) (destination : Path) : LockTable :=
  let table := table.update lock fun l => { l with holder := none, users := l.users - 1 }
  if table.users lock = 0 then table.remove destination else table

end LockTable

end Montage
