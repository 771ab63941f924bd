import SquadPanel.Js.Text

/-!
# Match assembly

Round lifecycle signals of one server become commands that open and close its matches.  Whatever
the order of the signals, the commands alternate, and what each of them carries is read off the
signals since the command before it.
-/

namespace SquadPanel.LogIngest.Match

open Js

inductive Team where
  | one
  | two
deriving DecidableEq

inductive TeamOutcome where
  | won
  | lost
deriving DecidableEq

structure RoundTicketsInfo where
  team : Team
  faction : JsString
  tickets : Nat
  outcome : TeamOutcome
  layer : JsString

inductive MatchWinner where
  | team1
  | team2
  | draw

inductive EndReason where
  | serverCrashed
  | serverRestarted

inductive MatchCommand where
  | opens (serverId startedAt : JsString) (layer : Option JsString)
  | close (serverId startedAt endedAt : JsString) (team1Faction team2Faction : Option JsString)
      (team1Tickets team2Tickets : Option Nat) (winner : Option MatchWinner)
  | closeServerDown (serverId : JsString) (startedAt : Option JsString) (endedAt : JsString)
      (endReason : EndReason)

structure TeamResult where
  faction : Option JsString
  tickets : Option Nat
  outcome : Option TeamOutcome

def TeamResult.none : TeamResult := ⟨.none, .none, .none⟩

structure OpenMatch where
  startedAt : JsString
  layer : Option JsString

structure MatchAssembler where
  serverId : JsString
  pendingLayer : Option JsString
  opened : Option OpenMatch
  team1 : TeamResult
  team2 : TeamResult

namespace MatchAssembler

def new (serverId : JsString) : MatchAssembler := ⟨serverId, none, none, .none, .none⟩

section
variable (a : MatchAssembler)

def buildServerDown (reason : EndReason) (ts : JsString) : MatchCommand :=
  .closeServerDown a.serverId (a.opened.map (·.startedAt)) ts reason

def resolveWinner : Option MatchWinner :=
  if a.team1.outcome = some .won then some .team1
  else if a.team2.outcome = some .won then some .team2
  else if a.team1.outcome = some .lost ∧ a.team2.outcome = some .lost then some .draw
  else none

def reset : MatchAssembler := new a.serverId

/-- A match that is still open when the next one is announced. -/
def closeStale (ts : JsString) : MatchAssembler × List MatchCommand :=
  if a.opened.isSome then (a.reset, [a.buildServerDown .serverRestarted ts]) else (a, [])

def onNewGame (layer : Option JsString) (ts : JsString) :
    MatchAssembler × List MatchCommand :=
  ({ (a.closeStale ts).1 with pendingLayer := layer }, (a.closeStale ts).2)

def onMatchStarted (ts : JsString) : MatchAssembler × List MatchCommand :=
  let (a, commands) := a.closeStale ts
  (⟨a.serverId, none, some ⟨ts, a.pendingLayer⟩, .none, .none⟩,
    commands ++ [.opens a.serverId ts a.pendingLayer])

def onRoundTickets (info : RoundTicketsInfo) :
    MatchAssembler × List MatchCommand :=
  match a.opened with
  | none => (a, [])
  | some opened =>
    let result : TeamResult := ⟨some info.faction, some info.tickets, some info.outcome⟩
    -- a missing layer is filled in from the result line
    let layer := if (opened.layer.getD []).isEmpty && !info.layer.isEmpty then some info.layer
      else opened.layer
    match info.team with
    | .one => ({ a with opened := some { opened with layer := layer }, team1 := result }, [])
    | .two => ({ a with opened := some { opened with layer := layer }, team2 := result }, [])

def onMatchEnded (ts : JsString) : MatchAssembler × List MatchCommand :=
  match a.opened with
  | none => (a, [])
  | some opened =>
    (a.reset, [.close a.serverId opened.startedAt ts a.team1.faction a.team2.faction
      a.team1.tickets a.team2.tickets a.resolveWinner])

def onServerDown (reason : EndReason) (ts : JsString) :
    MatchAssembler × List MatchCommand :=
  if a.opened.isSome then (a.reset, [a.buildServerDown reason ts]) else (a, [])

end

end MatchAssembler

inductive Signal where
  | newGame (layer : Option JsString) (ts : JsString)
  | matchStarted (ts : JsString)
  | roundTickets (info : RoundTicketsInfo)
  | matchEnded (ts : JsString)
  | serverDown (reason : EndReason) (ts : JsString)

def MatchAssembler.on (a : MatchAssembler) : Signal → MatchAssembler × List MatchCommand
  | .newGame layer ts => a.onNewGame layer ts
  | .matchStarted ts => a.onMatchStarted ts
  | .roundTickets info => a.onRoundTickets info
  | .matchEnded ts => a.onMatchEnded ts
  | .serverDown reason ts => a.onServerDown reason ts

/-! ## Histories -/

/-- The signals with the commands they gave, the latest first. -/
abbrev History : Type := List (Signal × List MatchCommand)

def feed : MatchAssembler × History → List Signal → MatchAssembler × History
  | fed, [] => fed
  | (a, h), signal :: signals => feed ((a.on signal).1, (signal, (a.on signal).2) :: h) signals

def MatchCommand.openedAt : MatchCommand → Option JsString
  | .opens _ startedAt _ => some startedAt
  | _ => none

/-- `startedAt` of the latest open. -/
def latestOpen (h : History) : Option JsString :=
  h.findSome? fun entry => entry.2.findSome? MatchCommand.openedAt

def ticketsOf (team : Team) : Signal → Option RoundTicketsInfo
  | .roundTickets info => if info.team = team then some info else none
  | _ => none

/-- The last result of a team since the latest open. -/
def lastTickets (team : Team) : History → Option RoundTicketsInfo
  | [] => none
  | (signal, commands) :: h =>
    if (commands.findSome? MatchCommand.openedAt).isSome then none
    else (ticketsOf team signal).or (lastTickets team h)

/-- The layer of the last new game at or after the signal of the previous command. -/
def layerSince : History → Option JsString
  | [] => none
  | (.newGame layer _, _) :: _ => layer
  | (_, []) :: h => layerSince h
  | (_, _ :: _) :: _ => none

/-- Opens and closes take turns from an open on; `opened` tells whether the last is an open. -/
inductive Alternates : List MatchCommand → Bool → Prop
  | nil : Alternates [] false
  | snoc {commands : List MatchCommand} {opened : Bool} {command : MatchCommand}
      (hcommands : Alternates commands opened) (hcommand : command.openedAt.isSome = !opened) :
      Alternates (commands ++ [command]) (!opened)

def commandsOf (h : History) : List MatchCommand := (h.reverse.map (·.2)).flatten

/-- What a command carries, by the history before it. -/
def Carries (h : History) : MatchCommand → Prop
  | .opens _ _ layer => layer = layerSince h
  | .close _ startedAt _ team1Faction team2Faction team1Tickets team2Tickets _ =>
    latestOpen h = some startedAt ∧
      team1Faction = (lastTickets .one h).map (·.faction) ∧
      team2Faction = (lastTickets .two h).map (·.faction) ∧
      team1Tickets = (lastTickets .one h).map (·.tickets) ∧
      team2Tickets = (lastTickets .two h).map (·.tickets)
  | .closeServerDown _ startedAt _ _ => startedAt.isSome ∧ startedAt = latestOpen h

/-- Every command carries what the history up to it tells. -/
def Faithful : History → Prop
  | [] => True
  | (signal, commands) :: h =>
    (∀ n c, commands[n]? = some c → Carries ((signal, commands.take n) :: h) c) ∧ Faithful h

/-! ## What the assembler remembers -/

structure Tells (a : MatchAssembler) (h : History) : Prop where
  alternates : Alternates (commandsOf h) a.opened.isSome
  faithful : Faithful h
  closed : a.opened = none → a.pendingLayer = layerSince h
  opened : ∀ o, a.opened = some o → latestOpen h = some o.startedAt ∧
    a.team1.faction = (lastTickets .one h).map (·.faction) ∧
    a.team2.faction = (lastTickets .two h).map (·.faction) ∧
    a.team1.tickets = (lastTickets .one h).map (·.tickets) ∧
    a.team2.tickets = (lastTickets .two h).map (·.tickets)

variable {a : MatchAssembler} {h : History} {signal : Signal} {command : MatchCommand}
  {a' : MatchAssembler}

theorem commandsOf_cons (signal : Signal) (commands : List MatchCommand) (h : History) :
    commandsOf ((signal, commands) :: h) = commandsOf h ++ commands := by
  simp [commandsOf]

theorem faithful_singleton (hh : Faithful h)
    (hcommand : Carries ((signal, []) :: h) command) : Faithful ((signal, [command]) :: h) := by
  refine ⟨fun n c hget => ?_, hh⟩
  cases n with
  | zero =>
    cases hget
    exact hcommand
  | succ n => cases hget

section
variable (ha : Tells a h)
include ha

/-- A signal outside a match that gives no command. -/
theorem Tells.quiet (hopened : a.opened = none) (hopened' : a'.opened = none)
    (hlayer : a'.pendingLayer = layerSince ((signal, []) :: h)) : Tells a' ((signal, []) :: h) := by
  refine ⟨?_, ⟨nofun, ha.faithful⟩, fun _ => hlayer, fun o ho => ?_⟩
  · have halternates := ha.alternates
    rw [hopened] at halternates
    rwa [commandsOf_cons, List.append_nil, hopened']
  · rw [hopened'] at ho
    cases ho

/-- A signal that closes the open match. -/
theorem Tells.closes (hopened : a.opened.isSome = true) (hopened' : a'.opened = none)
    (hcommand : command.openedAt = none) (hcarries : Carries ((signal, []) :: h) command)
    (hlayer : a'.pendingLayer = layerSince ((signal, [command]) :: h)) :
    Tells a' ((signal, [command]) :: h) := by
  refine ⟨?_, faithful_singleton ha.faithful hcarries, fun _ => hlayer, fun o ho => ?_⟩
  · have halternates := ha.alternates
    rw [hopened] at halternates
    rw [commandsOf_cons, hopened']
    exact .snoc halternates (congrArg Option.isSome hcommand)
  · rw [hopened'] at ho
    cases ho

theorem Tells.matchStarted (ts : JsString) :
    Tells (a.onMatchStarted ts).1 ((.matchStarted ts, (a.onMatchStarted ts).2) :: h) := by
  have halternates := ha.alternates
  obtain ⟨serverId, pendingLayer, opened, team1, team2⟩ := a
  cases opened with
  | none =>
    refine ⟨?_, faithful_singleton ha.faithful (ha.closed rfl), nofun, ?_⟩
    · rw [commandsOf_cons]
      exact .snoc halternates rfl
    · rintro _ ⟨⟩
      exact ⟨rfl, rfl, rfl, rfl, rfl⟩
  | some o =>
    refine ⟨?_, ⟨fun n c hget => ?_, ha.faithful⟩, nofun, ?_⟩
    · rw [commandsOf_cons]
      show Alternates (commandsOf h ++ ([_] ++ [_])) true
      rw [← List.append_assoc]
      exact .snoc (.snoc halternates rfl) rfl
    · rcases n with - | - | n
      · cases hget
        exact ⟨rfl, (ha.opened o rfl).1.symm⟩
      · cases hget
        rfl
      · cases hget
    · rintro _ ⟨⟩
      exact ⟨rfl, rfl, rfl, rfl, rfl⟩

theorem Tells.roundTickets (info : RoundTicketsInfo) :
    Tells (a.onRoundTickets info).1 ((.roundTickets info, (a.onRoundTickets info).2) :: h) := by
  have halternates := ha.alternates
  obtain ⟨serverId, pendingLayer, opened, team1, team2⟩ := a
  cases opened with
  | none => exact ha.quiet rfl rfl (ha.closed rfl)
  | some o =>
    obtain ⟨hopen, hfaction1, hfaction2, htickets1, htickets2⟩ := ha.opened o rfl
    have hquiet : Alternates (commandsOf ((.roundTickets info, []) :: h)) true := by
      rw [commandsOf_cons, List.append_nil]
      exact halternates
    cases hteam : info.team with
    | one | two =>
      simp only [MatchAssembler.onRoundTickets, hteam]
      refine ⟨hquiet, ⟨nofun, ha.faithful⟩, nofun, ?_⟩
      rintro _ ⟨⟩
      refine ⟨hopen, ?_⟩
      simp_all [lastTickets, ticketsOf]

theorem Tells.on (signal : Signal) : Tells (a.on signal).1 ((signal, (a.on signal).2) :: h) := by
  obtain ⟨serverId, pendingLayer, opened, team1, team2⟩ := a
  cases signal with
  | matchStarted ts => exact ha.matchStarted ts
  | roundTickets info => exact ha.roundTickets info
  | newGame layer ts =>
    cases opened with
    | none => exact ha.quiet rfl rfl rfl
    | some o => exact ha.closes rfl rfl rfl ⟨rfl, (ha.opened o rfl).1.symm⟩ rfl
  | matchEnded ts =>
    cases opened with
    | none => exact ha.quiet rfl rfl (ha.closed rfl)
    | some o => exact ha.closes rfl rfl rfl (ha.opened o rfl) rfl
  | serverDown reason ts =>
    cases opened with
    | none => exact ha.quiet rfl rfl (ha.closed rfl)
    | some o => exact ha.closes rfl rfl rfl ⟨rfl, (ha.opened o rfl).1.symm⟩ rfl

theorem Tells.feed (signals : List Signal) :
    Tells (feed (a, h) signals).1 (feed (a, h) signals).2 := by
  induction signals generalizing a h with
  | nil => exact ha
  | cons signal signals ih => exact ih (ha.on signal)

end

/-- Whatever the signals, the commands alternate and carry what the signals told. -/
theorem match_commands_faithful (serverId : JsString) (signals : List Signal) :
    (∃ opened, Alternates (commandsOf (feed (.new serverId, []) signals).2) opened) ∧
      Faithful (feed (.new serverId, []) signals).2 := by
  have hstart : Tells (.new serverId) [] := ⟨.nil, trivial, fun _ => rfl, nofun⟩
  have htells := hstart.feed signals
  exact ⟨⟨_, htells.alternates⟩, htells.faithful⟩

end SquadPanel.LogIngest.Match
