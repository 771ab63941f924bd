import SquadPanel.Dossier.Aggregate
import SquadPanel.Js.IsoDate
import SquadPanel.Js.Map

/-!
# Storing a combat line

A combat line of the game log becomes a command.  Handling it looks up the players, the match
and the roster, and then writes in one transaction: the event under an id computed from the
command, and, only if that id was new, the typed row and the dossier fold.  A command can be
handled again after a failure or a redelivery; its id is what keeps it from counting twice.
-/

namespace SquadPanel.LogIngest

open Js Dossier

/-! ## Commands -/

inductive CombatKind where
  | combatDamage
  | combatWound
  | combatDeath
  | combatRevive
  deriving DecidableEq, Repr

def CombatKind.text : CombatKind → JsString
  | .combatDamage => js "combat_damage"
  | .combatWound => js "combat_wound"
  | .combatDeath => js "combat_death"
  | .combatRevive => js "combat_revive"

/-- `COMBAT_KIND_TO_EVENT_TYPE`. -/
def CombatKind.eventType : CombatKind → CombatEventType
  | .combatDeath => .death
  | .combatDamage => .damage
  | .combatWound => .wound
  | .combatRevive => .revive

structure CombatIdentity where
  eosId : Option JsString
  steamId64 : Option JsString
  name : JsString
  deriving DecidableEq

/-- The separator of the id's key. -/
def BAR : UInt16 := 0x7C

/-- The server id is a uuid; the time is written with `toISOString`. -/
structure CombatRecordCommand where
  serverId : JsString
  kind : CombatKind
  ts : JsDate
  tick : Rat
  attacker : Option CombatIdentity
  victim : CombatIdentity
  weapon : Option JsString
  damage : Option Rat
  isSuicide : Bool
  attackerVehicle : Option JsString
  serverId_plain : BAR ∉ serverId

/-- What the runtime supplies: the text of a number, lower case, and name-based uuids. -/
structure Externals (Id : Type) where
  numberText : Rat → JsString
  numberText_injective : Function.Injective numberText
  numberText_ne_nil : ∀ n, numberText n ≠ []
  numberText_plain : ∀ n, BAR ∉ numberText n
  toLowerCase : JsString → JsString
  uuidv5 : JsString → Id
  uuidv5_injective : Function.Injective uuidv5

variable {P M Id : Type} [DecidableEq P] [DecidableEq Id] (ext : Externals Id)

/-! ## Teamkills -/

structure RosterTeamMember where
  eosId : Option JsString
  steamId64 : Option JsString
  name : Option JsString
  teamId : Option Int

structure TeamIndex where
  byEos : JsMap JsString Int
  bySteam : JsMap JsString Int
  byName : JsMap JsString Int

/-- `name.trim().replace(/\s+/g, ' ').toLowerCase()`. -/
def normalizeName (name : JsString) : JsString :=
  ext.toLowerCase (replaceRuns isWhitespace 0x20 (trim name))

/-- The index with one more member of a team. -/
def TeamIndex.addMember (index : TeamIndex) (member : RosterTeamMember) : TeamIndex :=
  match member.teamId with
  | none => index
  | some team =>
    { byEos := (truthy member.eosId).elim index.byEos
        fun eos => index.byEos.set (ext.toLowerCase eos) team
      bySteam := (truthy member.steamId64).elim index.bySteam
        fun steam => index.bySteam.set steam team
      byName := (truthy member.name).elim index.byName
        fun name => index.byName.set (normalizeName ext name) team }

def buildTeamIndex (members : List RosterTeamMember) : TeamIndex :=
  members.foldl (TeamIndex.addMember ext) ⟨.empty, .empty, .empty⟩

def resolveTeam (identity : Option CombatIdentity) (index : TeamIndex) : Option Int :=
  identity.bind fun identity =>
    ((truthy identity.eosId).bind index.byEos.get).or
      (((truthy identity.steamId64).bind index.bySteam.get).or
        ((truthy (some (normalizeName ext identity.name))).bind index.byName.get))

variable (command : CombatRecordCommand)

def detectTeamkill (index : TeamIndex) : Bool :=
  if command.kind = .combatRevive then false
  else if command.attacker.isNone || command.isSuicide then false
  else
    match resolveTeam ext command.attacker index, resolveTeam ext (some command.victim) index with
    | some attackerTeam, some victimTeam => attackerTeam = victimTeam
    | _, _ => false

/-! ## The id of a command -/

/-- The texts that the id is computed from, in order. -/
def keyFields : List JsString :=
  [command.serverId, command.kind.text, toISOString command.ts, ext.numberText command.tick,
    (command.attacker.map (·.name)).getD [], command.victim.name, command.weapon.getD [],
    (command.damage.map ext.numberText).getD []]

def deterministicEventId : Id :=
  ext.uuidv5 ([BAR].intercalate (keyFields ext command))

/-! ## The tables -/

inductive Payload (P M : Type) where
  | revive (matchId : Option M) (medicPlayerId revivedPlayerId : Option P)
      (medicName : Option JsString) (revivedName : JsString)
  | combat (matchId : Option M) (attackerPlayerId victimPlayerId : Option P)
      (attackerName : Option JsString) (victimName : JsString) (weapon : Option JsString)
      (damage : Option Rat) (attackerVehicle : Option JsString) (isTeamkill isSuicide : Bool)

structure EventRow (P M Id : Type) where
  eventId : Id
  serverId : JsString
  occurredAt : JsDate
  kind : CombatKind
  actorId : Option P
  correlationId : Option M
  payload : Payload P M

structure CombatEventRow (P M : Type) where
  eventType : CombatEventType
  serverId : JsString
  matchUuid : Option M
  attackerPlayerId : Option P
  victimPlayerId : Option P
  victimVehicle : Option JsString
  attackerVehicle : Option JsString
  weapon : Option JsString
  damage : Option Rat
  attackerKit : Option JsString
  isTeamkill : Bool
  occurredAt : JsDate

structure Store (P M Id : Type) where
  events : List (EventRow P M Id)
  combatEvents : List (CombatEventRow P M)
  dossier : DossierTables P

def Store.empty : Store P M Id := ⟨[], [], .empty⟩

/-! ## Handling a command -/

/-- One handling of a command: what the lookups answered, and whether the transaction got
through. -/
structure Attempt (P M : Type) where
  command : CombatRecordCommand
  roster : List RosterTeamMember
  attackerPlayerId : Option P
  victimPlayerId : Option P
  matchId : Option M
  commits : Bool

namespace Attempt

section
variable (attempt : Attempt P M)

/-- The parser sees names only; one player on both sides is a suicide too. -/
def isSuicide : Bool :=
  attempt.command.isSuicide ||
    (attempt.attackerPlayerId.isSome && attempt.attackerPlayerId = attempt.victimPlayerId)

def isTeamkill : Bool :=
  !attempt.isSuicide && detectTeamkill ext attempt.command (buildTeamIndex ext attempt.roster)

def buildPayload : Payload P M :=
  let command := attempt.command
  if command.kind = .combatRevive then
    .revive attempt.matchId attempt.attackerPlayerId attempt.victimPlayerId
      (command.attacker.map (·.name)) command.victim.name
  else
    .combat attempt.matchId attempt.attackerPlayerId attempt.victimPlayerId
      (command.attacker.map (·.name)) command.victim.name command.weapon command.damage
      command.attackerVehicle (attempt.isTeamkill ext) attempt.isSuicide

def eventRow : EventRow P M Id where
  eventId := deterministicEventId ext attempt.command
  serverId := attempt.command.serverId
  occurredAt := attempt.command.ts
  kind := attempt.command.kind
  actorId := attempt.attackerPlayerId
  correlationId := attempt.matchId
  payload := attempt.buildPayload ext

def combatEventRow : CombatEventRow P M where
  eventType := attempt.command.kind.eventType
  serverId := attempt.command.serverId
  matchUuid := attempt.matchId
  attackerPlayerId := attempt.attackerPlayerId
  victimPlayerId := attempt.victimPlayerId
  victimVehicle := none
  attackerVehicle := attempt.command.attackerVehicle
  weapon := attempt.command.weapon
  damage := attempt.command.damage
  attackerKit := none
  isTeamkill := attempt.isTeamkill ext
  occurredAt := attempt.command.ts

/-- The event as it is folded into the dossier. -/
def dossierEvent : DossierCombatEvent P where
  eventType := attempt.command.kind.eventType
  attackerPlayerId := attempt.attackerPlayerId
  weapon := attempt.command.weapon
  attackerVehicle := attempt.command.attackerVehicle
  victimVehicle := none
  damage := attempt.command.damage
  isTeamkill := attempt.isTeamkill ext
  occurredAt := attempt.command.ts.ms

end

end Attempt

structure HandleCombatResult (P M Id : Type) where
  eventId : Id
  kind : CombatKind
  inserted : Bool
  attackerPlayerId : Option P
  victimPlayerId : Option P
  isTeamkill : Bool
  matchId : Option M

variable (store : Store P M Id)

/-- `onConflictDoNothing` on the event's id and time. -/
def Store.hasEvent (eventId : Id) (occurredAt : JsDate) : Bool :=
  store.events.any fun row => row.eventId = eventId && row.occurredAt = occurredAt

/-- The transaction: the event, and with a new one its typed row and the dossier fold. -/
def Store.record (attempt : Attempt P M) : Store P M Id × Bool :=
  let row := attempt.eventRow ext
  if store.hasEvent row.eventId row.occurredAt then (store, false)
  else
    ({ events := store.events ++ [row]
       combatEvents := store.combatEvents ++ [attempt.combatEventRow ext]
       dossier := applyCombatEventToDossier store.dossier (attempt.dossierEvent ext) }, true)

/-- A transaction that fails leaves the tables alone and the handler throws. -/
def handleCombat (attempt : Attempt P M) :
    Store P M Id × Option (HandleCombatResult P M Id) :=
  if attempt.commits then
    let (store, inserted) := store.record ext attempt
    (store, some
      { eventId := deterministicEventId ext attempt.command
        kind := attempt.command.kind
        inserted := inserted
        attackerPlayerId := attempt.attackerPlayerId
        victimPlayerId := attempt.victimPlayerId
        isTeamkill := attempt.isTeamkill ext
        matchId := attempt.matchId })
  else (store, none)

/-- The tables after a sequence of handlings, from empty ones. -/
def handleAll (attempts : List (Attempt P M)) : Store P M Id :=
  attempts.foldl (fun store attempt => (handleCombat ext store attempt).1) .empty

end SquadPanel.LogIngest
