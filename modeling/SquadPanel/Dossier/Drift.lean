import Mathlib.Tactic.Linarith
import SquadPanel.Dossier.Aggregate

/-!
# Folding the events in and computing them again

What the ingest keeps is again a grouped aggregate of the events, with the rows of the rebuild
but with groups of its own: it leaves out events whose texts are empty, and it leaves an event
without a weapon out of the vehicle table too.  The two agree exactly when the events left
out would not have shown.
-/

set_option linter.unusedSectionVars false

namespace SquadPanel.Dossier

open Lib Js List DossierCombatEvent

variable {P : Type}

/-! ## The groups of the fold -/

namespace DossierCombatEvent

section
variable (event : DossierCombatEvent P)

/-- The weapon row that an event is folded into. -/
def weaponTarget : Option (P × JsString) :=
  if event.isDeath || event.isDamage then
    event.attackerPlayerId.bind fun player =>
      (truthy event.weapon).map fun weapon => (player, weapon)
  else none

/-- The vehicle row that an event is folded into, which an event without a weapon has not. -/
def vehicleTarget : Option (P × JsString) :=
  if (event.isDeath && !event.isTeamkill) || event.isDamage then
    event.attackerPlayerId.bind fun player => (truthy event.weapon).bind fun _ =>
      (truthy event.attackerVehicle).map fun vehicle => (player, vehicle)
  else none

/-- The row of destroyed vehicles that an event is folded into. -/
def destroyedTarget : Option (P × JsString × JsString) :=
  if event.eventType = .vehicleDestroyed then
    event.attackerPlayerId.bind fun player => (truthy event.victimVehicle).bind fun vehicle =>
      (truthy event.weapon).map fun weapon => (player, vehicle, weapon)
  else none

end

end DossierCombatEvent

/-- What an event adds to the damage column of its rows. -/
def damageAfter (stored : Option Rat) (event : DossierCombatEvent P) : Option Rat :=
  if event.isDamage then addDamage stored event.damage else stored

def weaponNext (event : DossierCombatEvent P) (row : WeaponStats) : WeaponStats where
  kills := row.kills + if event.isDeath && !event.isTeamkill then 1 else 0
  teamkills := row.teamkills + if event.isDeath && event.isTeamkill then 1 else 0
  damage := damageAfter row.damage event
  shotsEvents := row.shotsEvents + if event.isDamage then 1 else 0
  lastUsedAt := greatest row.lastUsedAt (some event.occurredAt)

def vehicleNext (event : DossierCombatEvent P) (row : VehicleStats) : VehicleStats where
  kills := row.kills + if event.isDeath then 1 else 0
  damage := damageAfter row.damage event

theorem sumNonNull_damages_concat (group : List (DossierCombatEvent P))
    (event : DossierCombatEvent P) : sumNonNull (damages (group ++ [event])) =
      damageAfter (sumNonNull (damages group)) event := by
  unfold damages damageAfter
  rw [filter_append, map_append]
  by_cases hdamage : event.isDamage
  · rw [if_pos hdamage, filter_cons_of_pos hdamage, filter_nil, map_cons, map_nil]
    cases hvalue : event.damage with
    | none =>
      rw [sumNonNull_append]
      simp [addDamage, sumNonNull]
    | some value =>
      rw [sumNonNull_concat_some]
      rfl
  · rw [if_neg hdamage, filter_cons_of_neg hdamage, filter_nil, map_nil, append_nil]

theorem max?_concat (moments : List Int) (moment : Int) :
    (moments ++ [moment]).max? = greatest moments.max? (some moment) := by
  cases moments with
  | nil => rfl
  | cons first rest =>
    rw [cons_append, max?_cons', max?_cons', foldl_append]
    rfl

section
variable (group : List (DossierCombatEvent P)) (event : DossierCombatEvent P)

theorem weaponRow_concat : weaponRow (group ++ [event]) = weaponNext event (weaponRow group) := by
  unfold weaponRow weaponNext
  rw [sumNonNull_damages_concat, map_append, map_cons, map_nil, max?_concat]
  simp only [countP_append, countP_singleton]

theorem vehicleRow_concat :
    vehicleRow (group ++ [event]) = vehicleNext event (vehicleRow group) := by
  unfold vehicleRow vehicleNext
  rw [sumNonNull_damages_concat]
  simp only [countP_append, countP_singleton]

end

/-! ## One event -/

theorem sumNonNull_singleton (damage : Option Rat) : sumNonNull [damage] = damage := by
  cases damage with
  | none => rfl
  | some value => simp [sumNonNull, List.reduceOption]

variable [DecidableEq P] {events : List (DossierCombatEvent P)} {event : DossierCombatEvent P}

/-- An event goes into each table under its own target there. -/
theorem applyCombatEventToDossier_eq (dossier : DossierTables P) (event : DossierCombatEvent P) :
    applyCombatEventToDossier dossier event =
      { playerWeaponStats := event.weaponTarget.elim dossier.playerWeaponStats fun key =>
          upsert dossier.playerWeaponStats key (weaponRow [event]) (weaponNext event)
        playerVehicleStats := event.vehicleTarget.elim dossier.playerVehicleStats fun key =>
          upsert dossier.playerVehicleStats key (vehicleRow [event]) (vehicleNext event)
        playerVehicleKills := event.destroyedTarget.elim dossier.playerVehicleKills fun key =>
          upsert dossier.playerVehicleKills key 1 (· + 1) } := by
  obtain ⟨eventType, attacker, weapon, vehicle, victim, damage, isTeamkill, occurredAt⟩ := event
  unfold applyCombatEventToDossier DossierCombatEvent.weaponTarget
    DossierCombatEvent.vehicleTarget DossierCombatEvent.destroyedTarget
  cases eventType with
  | death =>
    cases attacker <;> cases truthy weapon <;> cases truthy vehicle <;> cases isTeamkill <;> rfl
  | damage =>
    have hweapon : weaponRow [⟨.damage, attacker, weapon, vehicle, victim, damage, isTeamkill,
        occurredAt⟩] = ⟨0, 0, damage, 1, some occurredAt⟩ := by
      cases isTeamkill <;> exact congrArg (WeaponStats.mk 0 0 · 1 _) (sumNonNull_singleton damage)
    have hvehicle : vehicleRow [⟨.damage, attacker, weapon, vehicle, victim, damage, isTeamkill,
        occurredAt⟩] = ⟨0, damage⟩ :=
      congrArg (VehicleStats.mk 0) (sumNonNull_singleton damage)
    rw [hweapon, hvehicle]
    cases attacker <;> cases truthy weapon <;> cases truthy vehicle <;> rfl
  | vehicleDestroyed =>
    cases attacker <;> cases truthy victim <;> cases truthy weapon <;> rfl
  | wound => rfl
  | revive => rfl

/-- What the fold leaves: each table a grouped aggregate under the fold's own groups. -/
theorem applyCombatEvents_eq (events : List (DossierCombatEvent P)) : applyCombatEvents events =
      ⟨groupBy (·.weaponTarget) weaponRow events, groupBy (·.vehicleTarget) vehicleRow events,
        groupBy (·.destroyedTarget) List.length events⟩ := by
  have hstep := @applyCombatEventToDossier_eq P _
  apply DossierTables.ext
  · exact foldl_eq_groupBy rfl (fun d e => congrArg (·.playerWeaponStats) (hstep d e))
      weaponRow_concat events
  · exact foldl_eq_groupBy rfl (fun d e => congrArg (·.playerVehicleStats) (hstep d e))
      vehicleRow_concat events
  · exact foldl_eq_groupBy rfl (fun d e => congrArg (·.playerVehicleKills) (hstep d e))
      (fun _ _ => length_append) events

/-! ## The groups of the rebuild -/

theorem truthy_eq_some {text : Option JsString} {t : JsString} :
    truthy text = some t ↔ text = some t ∧ t ≠ [] := by
  unfold truthy
  rw [Option.filter_eq_some_iff, decide_eq_true_eq]

namespace DossierCombatEvent

/-- The vehicle and the weapon of the event are ones the fold takes. -/
def isFolded (event : DossierCombatEvent P) : Bool :=
  (truthy event.weapon).isSome && (truthy event.attackerVehicle).isSome

omit [DecidableEq P]

variable {event : DossierCombatEvent P} {k : P × JsString}

theorem weaponTarget_eq_some :
    event.weaponTarget = some k ↔ event.weaponGroup = some k ∧ k.2 ≠ [] := by
  unfold weaponTarget weaponGroup
  split
  · simp only [Option.bind_eq_some_iff, Option.map_eq_some_iff, truthy_eq_some]
    constructor
    · rintro ⟨player, hplayer, weapon, ⟨hweapon, hne⟩, rfl⟩
      exact ⟨⟨player, hplayer, weapon, hweapon, rfl⟩, hne⟩
    · rintro ⟨⟨player, hplayer, weapon, hweapon, rfl⟩, hne⟩
      exact ⟨player, hplayer, weapon, ⟨hweapon, hne⟩, rfl⟩
  · simp

theorem destroyedTarget_eq_some {k : P × JsString × JsString} : event.destroyedTarget = some k ↔
      event.destroyedGroup = some k ∧ k.2.1 ≠ [] ∧ k.2.2 ≠ [] := by
  unfold destroyedTarget destroyedGroup
  split
  · simp only [Option.bind_eq_some_iff, Option.map_eq_some_iff, truthy_eq_some]
    constructor
    · rintro ⟨player, hplayer, vehicle, ⟨hvehicle, hv⟩, weapon, ⟨hweapon, hw⟩, rfl⟩
      exact ⟨⟨player, hplayer, vehicle, hvehicle, weapon, hweapon, rfl⟩, hv, hw⟩
    · rintro ⟨⟨player, hplayer, vehicle, hvehicle, weapon, hweapon, rfl⟩, hv, hw⟩
      exact ⟨player, hplayer, vehicle, ⟨hvehicle, hv⟩, weapon, ⟨hweapon, hw⟩, rfl⟩
  · simp

theorem vehicleTarget_eq_some :
    event.vehicleTarget = some k ↔ event.vehicleGroup = some k ∧ event.isFolded := by
  unfold vehicleTarget vehicleGroup isFolded
  split
  · simp only [Option.bind_eq_some_iff, Option.map_eq_some_iff, Bool.and_eq_true,
      Option.isSome_iff_exists]
    constructor
    · rintro ⟨player, hplayer, weapon, hweapon, vehicle, hvehicle, rfl⟩
      exact ⟨⟨player, hplayer, vehicle, (truthy_eq_some.mp hvehicle).1, rfl⟩,
        ⟨weapon, hweapon⟩, ⟨vehicle, hvehicle⟩⟩
    · rintro ⟨⟨player, hplayer, vehicle, hvehicle, rfl⟩, ⟨weapon, hweapon⟩, ⟨other, hother⟩⟩
      have hsame : other = vehicle :=
        Option.some.inj ((truthy_eq_some.mp hother).1.symm.trans hvehicle)
      exact ⟨player, hplayer, weapon, hweapon, vehicle, hsame ▸ hother, rfl⟩
  · simp

/-- An event of the vehicle query is a death or a damage event. -/
theorem isDamage_of_vehicleGroup (hgroup : event.vehicleGroup = some k)
    (hdeath : event.isDeath = false) : event.isDamage = true := by
  unfold vehicleGroup at hgroup
  split at hgroup
  · next hkind => simpa [hdeath] using hkind
  · cases hgroup

end DossierCombatEvent

/-! ## Where the two agree -/

section
variable (events : List (DossierCombatEvent P)) (k : P × JsString)

/-- The events of a vehicle row that the fold takes. -/
def foldedEvents :
    List (DossierCombatEvent P) :=
  (withKey (·.vehicleGroup) events (some k)).filter (·.isFolded)

/-- The events of a vehicle row that the fold skips. -/
def skippedEvents :
    List (DossierCombatEvent P) :=
  (withKey (·.vehicleGroup) events (some k)).filter (!·.isFolded)

end

/-- The skipped events of a vehicle row would not have shown in it: there are none; or the row
exists without them, none of them is a kill, and they carry no damage or damage of sum zero. -/
def LeavesNoTrace (folded skipped : List (DossierCombatEvent P)) : Prop :=
  skipped = [] ∨ (folded ≠ [] ∧ (∀ event ∈ skipped, event.isDamage) ∧
    ((∀ event ∈ skipped, event.damage = none) ∨
      ((∃ event ∈ folded, event.isDamage ∧ event.damage ≠ none) ∧
        (damages skipped).reduceOption.sum = 0)))

section
variable (events : List (DossierCombatEvent P)) (k : P × JsString)

theorem withKey_vehicleTarget :
    withKey (·.vehicleTarget) events (some k) = foldedEvents events k := by
  unfold foldedEvents withKey
  rw [filter_filter]
  apply filter_congr
  intro event _
  rw [Bool.eq_iff_iff]
  simp only [vehicleTarget_eq_some, decide_eq_true_eq, Bool.and_eq_true, and_comm]

theorem folded_append_skipped : (foldedEvents events k ++ skippedEvents events k).Perm
      (withKey (·.vehicleGroup) events (some k)) :=
  filter_append_perm _ _

end

theorem isDeath_of_isDamage (hdamage : event.isDamage = true) : event.isDeath = false := by
  unfold DossierCombatEvent.isDeath
  rw [of_decide_eq_true hdamage]
  rfl

variable {all folded skipped : List (DossierCombatEvent P)}

theorem vehicleRow_append (hperm : (folded ++ skipped).Perm all) : vehicleRow all =
      ⟨folded.countP (·.isDeath) + skipped.countP (·.isDeath),
        Option.merge (· + ·) (sumNonNull (damages folded)) (sumNonNull (damages skipped))⟩ := by
  have hdamages : (damages (folded ++ skipped)).Perm (damages all) :=
    (hperm.filter _).map _
  unfold vehicleRow
  rw [← hperm.countP_eq, ← sumNonNull_perm hdamages, countP_append]
  unfold damages
  rw [filter_append, map_append, sumNonNull_append]

theorem sumNonNull_damages_eq_none : sumNonNull (damages events) = none ↔
      ∀ event ∈ events, event.isDamage → event.damage = none := by
  rw [sumNonNull_eq_none]
  simp only [damages, mem_map, mem_filter, forall_exists_index, and_imp]
  constructor
  · intro hall event hevent hdamage
    exact hall _ event hevent hdamage rfl
  · rintro hall _ event hevent hdamage rfl
    exact hall event hevent hdamage

theorem vehicleRow_eq_iff (hperm : (folded ++ skipped).Perm all)
    (hkinds : ∀ event ∈ skipped, event.isDeath = false → event.isDamage = true) :
    vehicleRow folded = vehicleRow all ↔
      (∀ event ∈ skipped, event.isDamage) ∧
        ((∀ event ∈ skipped, event.damage = none) ∨
          ((∃ event ∈ folded, event.isDamage ∧ event.damage ≠ none) ∧
            (damages skipped).reduceOption.sum = 0)) := by
  have hdeaths : skipped.countP (·.isDeath) = 0 ↔ ∀ event ∈ skipped, event.isDamage := by
    rw [countP_eq_zero]
    constructor
    · intro hall event hevent
      exact hkinds event hevent (Bool.not_eq_true _ ▸ hall event hevent)
    · intro hall event hevent
      rw [isDeath_of_isDamage (hall event hevent)]
      exact Bool.false_ne_true
  have hfolded : sumNonNull (damages folded) ≠ none ↔
      ∃ event ∈ folded, event.isDamage ∧ event.damage ≠ none := by
    rw [Ne, sumNonNull_damages_eq_none]
    simp only [not_forall, exists_prop]
  rw [vehicleRow_append hperm]
  unfold vehicleRow
  rw [VehicleStats.mk.injEq, Nat.left_eq_add, hdeaths]
  apply and_congr_right
  intro hall
  have hskipped : sumNonNull (damages skipped) = none ↔
      ∀ event ∈ skipped, event.damage = none := by
    rw [sumNonNull_damages_eq_none]
    exact ⟨fun h event hevent => h event hevent (hall event hevent),
      fun h event hevent _ => h event hevent⟩
  rw [eq_comm, merge_add_eq_left, hskipped, hfolded, sumNonNull_getD]

theorem vehicleStats_eq_iff (events : List (DossierCombatEvent P)) (k : P × JsString) :
    groupBy (·.vehicleTarget) vehicleRow events k =
        groupBy (·.vehicleGroup) vehicleRow events k ↔
      LeavesNoTrace (foldedEvents events k) (skippedEvents events k) := by
  have hperm := folded_append_skipped events k
  have htarget := withKey_vehicleTarget events k
  have hkinds : ∀ event ∈ skippedEvents events k,
      event.isDeath = false → event.isDamage = true := by
    intro event hevent hdeath
    have hgroup := (mem_filter.mp (mem_filter.mp hevent).1).2
    exact event.isDamage_of_vehicleGroup (of_decide_eq_true hgroup) hdeath
  by_cases hfolded : foldedEvents events k = []
  · rw [hfolded, nil_append] at hperm
    rw [groupBy_of_nil (htarget.trans hfolded), eq_comm, groupBy_eq_none, hfolded]
    constructor
    · intro hnil
      exact .inl (hnil ▸ hperm).eq_nil
    · rintro (hnil | ⟨hne, -⟩)
      · exact (hnil ▸ hperm).symm.eq_nil
      · exact absurd rfl hne
  · have hall : withKey (·.vehicleGroup) events (some k) ≠ [] := by
      intro hnil
      rw [hnil] at hperm
      exact hfolded (append_eq_nil_iff.mp hperm.eq_nil).1
    rw [groupBy_of_ne_nil (htarget ▸ hfolded), groupBy_of_ne_nil hall, Option.some.injEq,
      htarget, vehicleRow_eq_iff hperm hkinds]
    constructor
    · intro hrow
      exact .inr ⟨hfolded, hrow⟩
    · rintro (hnil | ⟨-, hrow⟩)
      · rw [hnil]
        simp
      · exact hrow

/-- The fold leaves what the rebuild computes exactly when no event that counts for a weapon or
for a destroyed vehicle has an empty text there, and in every vehicle row the events that the
fold skips, those without a weapon, would not have shown. -/
theorem applyCombatEvents_eq_rebuild_iff (events : List (DossierCombatEvent P)) :
    applyCombatEvents events = rebuildFromEvents events ↔
      (∀ event ∈ events, event.isDeath ∨ event.isDamage → event.attackerPlayerId ≠ none →
        event.weapon ≠ some []) ∧
      (∀ k, LeavesNoTrace (foldedEvents events k) (skippedEvents events k)) ∧
      (∀ event ∈ events, event.eventType = .vehicleDestroyed → event.attackerPlayerId ≠ none →
        event.victimVehicle ≠ none → event.weapon ≠ none →
          event.victimVehicle ≠ some [] ∧ event.weapon ≠ some []) := by
  rw [applyCombatEvents_eq, rebuildFromEvents, DossierTables.mk.injEq]
  refine and_congr ?_ (and_congr ?_ ?_)
  · rw [groupBy_eq_iff_of_kept fun _ _ => weaponTarget_eq_some]
    refine forall₂_congr fun event _ => ?_
    obtain ⟨eventType, attacker, weapon, vehicle, victim, damage, isTeamkill, occurredAt⟩ := event
    cases eventType <;> cases attacker <;> cases weapon <;>
      simp [weaponGroup, isDeath, isDamage]
  · rw [funext_iff]
    exact forall_congr' (vehicleStats_eq_iff events)
  · rw [groupBy_eq_iff_of_kept fun _ _ => destroyedTarget_eq_some]
    refine forall₂_congr fun event _ => ?_
    obtain ⟨eventType, attacker, weapon, vehicle, victim, damage, isTeamkill, occurredAt⟩ := event
    cases eventType <;> cases attacker <;> cases victim <;> cases weapon <;>
      simp [destroyedGroup]

/-- A kill that names its weapon and its vehicle. -/
theorem applyCombatEvents_eq_rebuild_kill : let kill : DossierCombatEvent Nat :=
      ⟨.death, some 7, some (js "BP_2A72"), some (js "BP_BTR80"), none, none, false, 1000⟩
    applyCombatEvents [kill] = rebuildFromEvents [kill] := by
  intro kill
  refine (applyCombatEvents_eq_rebuild_iff [kill]).mpr ⟨?_, ?_, ?_⟩
  · intro event hevent _ _
    rw [mem_singleton.mp hevent]
    decide
  · intro k
    refine .inl (filter_eq_nil_iff.mpr ?_)
    intro event hevent
    rw [mem_singleton.mp (mem_filter.mp hevent).1]
    decide
  · intro event hevent hkind
    rw [mem_singleton.mp hevent] at hkind
    cases hkind

/-- A kill from a vehicle whose log line names no weapon: the rebuild counts it for the
vehicle, the fold has dropped it. -/
theorem applyCombatEvents_without_weapon : let kill : DossierCombatEvent Nat :=
      ⟨.death, some 7, none, some (js "BP_BTR80"), none, none, false, 1000⟩
    (applyCombatEvents [kill]).playerVehicleStats (7, js "BP_BTR80") = none ∧
      (rebuildFromEvents [kill]).playerVehicleStats (7, js "BP_BTR80") = some ⟨1, none⟩ ∧
      applyCombatEvents [kill] ≠ rebuildFromEvents [kill] := by
  intro kill
  have hfold : (applyCombatEvents [kill]).playerVehicleStats (7, js "BP_BTR80") = none := by
    decide +kernel
  have hrebuild : (rebuildFromEvents [kill]).playerVehicleStats (7, js "BP_BTR80") =
      some ⟨1, none⟩ := by
    decide +kernel
  refine ⟨hfold, hrebuild, ?_⟩
  intro heq
  rw [heq, hrebuild] at hfold
  cases hfold

end SquadPanel.Dossier
