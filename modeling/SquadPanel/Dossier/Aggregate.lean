import Mathlib.Algebra.Order.Ring.Rat
import SquadPanel.Js.Text
import SquadPanel.Lib.GroupBy

/-!
# The dossier aggregates

Per-weapon and per-vehicle figures of every player, from the combat events.  The ingest folds
each event into the three aggregate tables when it stores it (`applyCombatEventToDossier`);
the repair of the nightly reconciliation computes the tables again from all stored events
(`rebuildFromEvents`).

Damage is a `numeric` column, so an exact number; a moment is a number of milliseconds.
-/

namespace SquadPanel.Dossier

open Lib Js

/-! ## Events and tables -/

inductive CombatEventType where
  | death
  | damage
  | wound
  | revive
  | vehicleDestroyed
  deriving DecidableEq, Repr

/-- A stored combat event with the fields that the aggregation reads. -/
structure DossierCombatEvent (P : Type) where
  eventType : CombatEventType
  attackerPlayerId : Option P
  weapon : Option JsString
  attackerVehicle : Option JsString
  victimVehicle : Option JsString
  damage : Option Rat
  isTeamkill : Bool
  occurredAt : Int
  deriving DecidableEq

structure WeaponStats where
  kills : Nat
  teamkills : Nat
  damage : Option Rat
  shotsEvents : Nat
  lastUsedAt : Option Int
  deriving DecidableEq

structure VehicleStats where
  kills : Nat
  damage : Option Rat
  deriving DecidableEq

/-- The tables, each under its primary key. -/
@[ext]
structure DossierTables (P : Type) where
  playerWeaponStats : Table (P × JsString) WeaponStats
  playerVehicleStats : Table (P × JsString) VehicleStats
  /-- The number of destroyed vehicles by player, victim vehicle and weapon. -/
  playerVehicleKills : Table (P × JsString × JsString) Nat

variable {P : Type} [DecidableEq P]

def DossierTables.empty : DossierTables P := ⟨fun _ => none, fun _ => none, fun _ => none⟩

/-! ## Folding one event in -/

/-- A text that is neither null nor empty, which is what a text is tested for. -/
def truthy (text : Option JsString) : Option JsString := text.filter fun t => t ≠ []

/-- The greater of two columns, of which null ones do not count. -/
def greatest (left right : Option Int) : Option Int := Option.merge max left right

/-- The damage column after an event: unchanged by an event without damage. -/
def addDamage (stored excluded : Option Rat) : Option Rat :=
  match excluded with
  | none => stored
  | some damage => some (stored.getD 0 + damage)

namespace DossierTables

section
variable (dossier : DossierTables P) (playerId : P)

def upsertWeaponKill (weapon : JsString)
    (isTeamkill : Bool) (occurredAt : Int) : DossierTables P :=
  let killInc := if isTeamkill then 0 else 1
  let teamkillInc := if isTeamkill then 1 else 0
  { dossier with
    playerWeaponStats := upsert dossier.playerWeaponStats (playerId, weapon)
      { kills := killInc, teamkills := teamkillInc, shotsEvents := 0, damage := none,
        lastUsedAt := some occurredAt }
      fun row =>
        { row with
          kills := row.kills + killInc
          teamkills := row.teamkills + teamkillInc
          lastUsedAt := greatest row.lastUsedAt (some occurredAt) } }

def upsertWeaponDamage (weapon : JsString)
    (damage : Option Rat) (occurredAt : Int) : DossierTables P :=
  { dossier with
    playerWeaponStats := upsert dossier.playerWeaponStats (playerId, weapon)
      { kills := 0, teamkills := 0, shotsEvents := 1, damage := damage,
        lastUsedAt := some occurredAt }
      fun row =>
        { row with
          shotsEvents := row.shotsEvents + 1
          damage := addDamage row.damage damage
          lastUsedAt := greatest row.lastUsedAt (some occurredAt) } }

def upsertVehicleKill (vehicleAssetId : JsString) :
    DossierTables P :=
  { dossier with
    playerVehicleStats := upsert dossier.playerVehicleStats (playerId, vehicleAssetId)
      { kills := 1, damage := none } fun row => { row with kills := row.kills + 1 } }

def upsertVehicleDamage (vehicleAssetId : JsString)
    (damage : Option Rat) : DossierTables P :=
  { dossier with
    playerVehicleStats := upsert dossier.playerVehicleStats (playerId, vehicleAssetId)
      { kills := 0, damage := damage }
      fun row => { row with damage := addDamage row.damage damage } }

def upsertVehicleDestroyed (victimVehicleAssetId weapon : JsString) : DossierTables P :=
  { dossier with
    playerVehicleKills :=
      upsert dossier.playerVehicleKills (playerId, victimVehicleAssetId, weapon) 1 (· + 1) }

end

end DossierTables

/-- A player id is a uuid and so never an empty text: its test is the one for null. -/
def applyCombatEventToDossier (dossier : DossierTables P) (event : DossierCombatEvent P) :
    DossierTables P :=
  match event.eventType with
  | .death =>
    match event.attackerPlayerId, truthy event.weapon with
    | some attackerPlayerId, some weapon =>
      let dossier :=
        dossier.upsertWeaponKill attackerPlayerId weapon event.isTeamkill event.occurredAt
      match truthy event.attackerVehicle with
      | some attackerVehicle =>
        if event.isTeamkill then dossier
        else dossier.upsertVehicleKill attackerPlayerId attackerVehicle
      | none => dossier
    | _, _ => dossier
  | .damage =>
    match event.attackerPlayerId, truthy event.weapon with
    | some attackerPlayerId, some weapon =>
      let dossier :=
        dossier.upsertWeaponDamage attackerPlayerId weapon event.damage event.occurredAt
      match truthy event.attackerVehicle with
      | some attackerVehicle =>
        dossier.upsertVehicleDamage attackerPlayerId attackerVehicle event.damage
      | none => dossier
    | _, _ => dossier
  | .vehicleDestroyed =>
    match event.attackerPlayerId, truthy event.victimVehicle, truthy event.weapon with
    | some attackerPlayerId, some victimVehicle, some weapon =>
      dossier.upsertVehicleDestroyed attackerPlayerId victimVehicle weapon
    | _, _, _ => dossier
  | .wound => dossier
  | .revive => dossier

/-- The tables after the events have been folded in, in order. -/
def applyCombatEvents (events : List (DossierCombatEvent P)) : DossierTables P :=
  events.foldl applyCombatEventToDossier .empty

/-! ## Computing the tables from all events -/

namespace DossierCombatEvent

section
variable (event : DossierCombatEvent P)

def isDeath : Bool := event.eventType = .death

def isDamage : Bool := event.eventType = .damage

/-- The group of the weapon query: null where its `WHERE` leaves the event out. -/
def weaponGroup : Option (P × JsString) :=
  if event.isDeath || event.isDamage then
    event.attackerPlayerId.bind fun player => event.weapon.map fun weapon => (player, weapon)
  else none

/-- The group of the vehicle query. -/
def vehicleGroup : Option (P × JsString) :=
  if (event.isDeath && !event.isTeamkill) || event.isDamage then
    event.attackerPlayerId.bind fun player =>
      event.attackerVehicle.map fun vehicle => (player, vehicle)
  else none

/-- The group of the query for destroyed vehicles. -/
def destroyedGroup : Option (P × JsString × JsString) :=
  if event.eventType = .vehicleDestroyed then
    event.attackerPlayerId.bind fun player => event.victimVehicle.bind fun vehicle =>
      event.weapon.map fun weapon => (player, vehicle, weapon)
  else none

end

end DossierCombatEvent

variable (events : List (DossierCombatEvent P))

/-- The damage column of the damage events among some events. -/
def damages : List (Option Rat) :=
  (events.filter (·.isDamage)).map (·.damage)

variable (group : List (DossierCombatEvent P))

def weaponRow : WeaponStats where
  kills := group.countP fun event => event.isDeath && !event.isTeamkill
  teamkills := group.countP fun event => event.isDeath && event.isTeamkill
  damage := sumNonNull (damages group)
  shotsEvents := group.countP (·.isDamage)
  lastUsedAt := (group.map (·.occurredAt)).max?

def vehicleRow : VehicleStats where
  kills := group.countP (·.isDeath)
  damage := sumNonNull (damages group)

def rebuildFromEvents : DossierTables P where
  playerWeaponStats := groupBy (·.weaponGroup) weaponRow events
  playerVehicleStats := groupBy (·.vehicleGroup) vehicleRow events
  playerVehicleKills := groupBy (·.destroyedGroup) List.length events

end SquadPanel.Dossier
