import Chip8.Fault

/-! The unread faults: the newest sixty-four of them, oldest first. -/

namespace Chip8

/-- Faults waiting for the host to read them. -/
structure FaultQueue where
  faults : List Fault
  length_le : faults.length ≤ 64
deriving DecidableEq

namespace FaultQueue

/-- How many unread faults are kept. -/
def capacity : Nat := 64

def empty : FaultQueue := ⟨[], by decide⟩

/-- The newest faults of a history. -/
def ofHistory (history : List Fault) : FaultQueue where
  faults := history.drop (history.length - capacity)
  length_le := by
    simp only [List.length_drop, capacity]
    omega

/-- Adds a fault at the end; a full queue loses its oldest one. -/
def push (queue : FaultQueue) (fault : Fault) : FaultQueue :=
  ofHistory (queue.faults ++ [fault])

def pushAll (queue : FaultQueue) (faults : List Fault) : FaultQueue :=
  faults.foldl push queue

@[simp] theorem faults_empty : empty.faults = [] := rfl

end FaultQueue

end Chip8
