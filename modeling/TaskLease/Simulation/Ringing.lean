import TaskLease.Simulation.State

/-!
# Ringing timers

When the timer moves on, the handles that are kept alive by then renew their locks, one after the other in
the order in which they are due, and of those due at one time in the order in which they were given out. A
timer that is due again at once rings again, which can happen only as often as its period fits into the
time that it is late.
-/

namespace TaskLease

namespace Simulation

namespace State

/-- The earlier of two rings; of two at one time, the first. -/
def earlier (a b : Option (Nat × Duration)) : Option (Nat × Duration) :=
  match a, b with
  | some x, some y => if y.2 < x.2 then some y else some x
  | some x, none => some x
  | none, b => b

/-- The number of the handle whose timer rings next, and the time at which it is due. -/
def nextRing (s : State) : Option (Nat × Duration) :=
  s.handles.entries.foldl
    (fun found e => earlier found (e.2.handle.due?.map fun due => (e.1, due))) none

/-- Rings the timers that are due, the earliest first, up to a number of times. -/
def ringDue : (rings : Nat) → Running Unit
  | 0 => return
  | rings + 1 => do
    let s ← get
    match s.nextRing with
    | none => return
    | some (number, due) =>
      if s.timer < due then return
      else
        let _ ← onHandle number fun accessor handle provider => do
          let (handle, provider) ← handle.ring accessor due s.timer provider
          return ((), handle, provider)
        ringDue rings

/-- Moves the timer on, and rings what becomes due. -/
def moveTimer (length : Duration) : Running Unit := do
  modify fun s => { s with timer := s.timer + length }
  let s ← get
  ringDue (s.handles.values.foldl (fun rings e => rings + e.handle.ringsBy s.timer) 0)

end State

end Simulation

end TaskLease
