import Mathlib.Algebra.Ring.Int.Defs

/-!
# The seeding state machine

One server is either seeding or live.  A poll moves it from one to the other, with
a hysteresis band below `liveAt`, and each move is announced once.
-/

namespace SquadPanel.Presence

inductive SeedingStateName where
  | seeding
  | live
deriving DecidableEq, Repr

inductive SeedingTransition where
  | started
  | ended
deriving DecidableEq, Repr

structure SeedingState where
  state : SeedingStateName
  startedAt : Option Int
  currentPlayers : Nat
  liveAt : Int
  updatedAt : Int
deriving DecidableEq, Repr

structure SeedingTickInput where
  playerCount : Nat
  seedLayer : Bool
  liveAt : Int
  hysteresis : Int
  now : Int

/-- The state an entered period starts in. -/
def SeedingTickInput.entered (input : SeedingTickInput) (name : SeedingStateName) :
    SeedingState where
  state := name
  startedAt := if name = .seeding then some input.now else none
  currentPlayers := input.playerCount
  liveAt := input.liveAt
  updatedAt := input.now

/-- The previous state with this poll's figures. -/
def SeedingTickInput.carried (input : SeedingTickInput) (prev : SeedingState) : SeedingState :=
  { prev with
    currentPlayers := input.playerCount
    liveAt := input.liveAt
    updatedAt := input.now }

def computeSeedingTick (prev : Option SeedingState) (input : SeedingTickInput) :
    SeedingState × Option SeedingTransition :=
  match prev with
  | none =>
    -- nothing to debounce against: the first poll decides alone
    if input.playerCount < input.liveAt ∨ input.seedLayer then
      (input.entered .seeding, some .started)
    else (input.entered .live, none)
  | some prev =>
    match prev.state with
    | .live =>
      if input.playerCount < input.liveAt - input.hysteresis ∨ input.seedLayer then
        (input.entered .seeding, some .started)
      else (input.carried prev, none)
    | .seeding =>
      if input.liveAt ≤ input.playerCount ∧ ¬ input.seedLayer then
        (input.entered .live, some .ended)
      else (input.carried prev, none)

end SquadPanel.Presence
