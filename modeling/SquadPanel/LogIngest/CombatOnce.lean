import Mathlib.Data.Rat.Encodable
import SquadPanel.Lib.LineSplit
import SquadPanel.LogIngest.CombatStore

/-!
# Each combat command once

However often commands are handled, the tables hold the first handling of every id that got
through.  That is every command once exactly when no two different commands have one id,
which is a matter of the separator inside player names: the key keeps the pieces between
separators, not where one name ends and the next begins.
-/

namespace SquadPanel.LogIngest

open Lib Js Dossier List

/-! ## What makes two commands one -/

/-- The fields in which distinct commands differ. -/
structure CommandIdentity where
  serverId : JsString
  kind : CombatKind
  ts : JsDate
  tick : Rat
  attackerName : Option JsString
  victimName : JsString
  weapon : Option JsString
  damage : Option Rat
  deriving DecidableEq

def CombatRecordCommand.identity (command : CombatRecordCommand) : CommandIdentity where
  serverId := command.serverId
  kind := command.kind
  ts := command.ts
  tick := command.tick
  attackerName := command.attacker.map (·.name)
  victimName := command.victim.name
  weapon := command.weapon
  damage := command.damage

/-- The pieces between separators of the two names and the weapon, one after the other. -/
def CommandIdentity.namePieces (identity : CommandIdentity) : List JsString :=
  (identity.attackerName.getD []).splitOn BAR ++ identity.victimName.splitOn BAR ++
    (identity.weapon.getD []).splitOn BAR

/-- The same but for the place of separators in the names and the weapon, and for absent or
empty ones. -/
def SamePieces (a b : CommandIdentity) : Prop :=
  a.serverId = b.serverId ∧ a.kind = b.kind ∧ a.ts = b.ts ∧ a.tick = b.tick ∧
    a.damage = b.damage ∧ a.namePieces = b.namePieces

variable {P M Id : Type} (ext : Externals Id)

/-! ## The key of the id -/

theorem CombatKind.bar_notMem_text (kind : CombatKind) : BAR ∉ kind.text := by
  cases kind <;> decide

theorem CombatKind.text_injective : Function.Injective CombatKind.text := by
  intro a b
  cases a <;> cases b <;> decide

theorem bar_notMem_toISOString (date : JsDate) : BAR ∉ toISOString date := by
  intro hbar
  rcases mem_toISOString hbar with hdigit | hseparator
  · cases hdigit
  · revert hseparator
    decide

theorem bar_notMem_damageText (damage : Option Rat) :
    BAR ∉ (damage.map ext.numberText).getD [] := by
  cases damage with
  | none => exact not_mem_nil
  | some value => exact ext.numberText_plain value

theorem damageText_injective {damage damage' : Option Rat}
    (heq : (damage.map ext.numberText).getD [] = (damage'.map ext.numberText).getD []) :
    damage = damage' := by
  cases damage with
  | none =>
    cases damage' with
    | none => rfl
    | some value => exact absurd heq.symm (ext.numberText_ne_nil value)
  | some value =>
    cases damage' with
    | none => exact absurd heq (ext.numberText_ne_nil value)
    | some value' => rw [ext.numberText_injective heq]

theorem flatMap_keyFields (command : CombatRecordCommand) :
    ((keyFields ext command).flatMap fun field => field.splitOn BAR) =
      [command.serverId, command.kind.text, toISOString command.ts, ext.numberText command.tick] ++
        (command.identity.namePieces ++ [(command.damage.map ext.numberText).getD []]) := by
  simp only [keyFields, flatMap_cons, flatMap_nil, append_nil,
    splitOn_eq_singleton command.serverId_plain,
    splitOn_eq_singleton command.kind.bar_notMem_text,
    splitOn_eq_singleton (bar_notMem_toISOString command.ts),
    splitOn_eq_singleton (ext.numberText_plain command.tick),
    splitOn_eq_singleton (bar_notMem_damageText ext command.damage),
    CommandIdentity.namePieces, CombatRecordCommand.identity, append_assoc,
    cons_append, nil_append]

/-- Two commands have one id exactly when the separators alone tell them apart. -/
theorem deterministicEventId_eq_iff (a b : CombatRecordCommand) :
    deterministicEventId ext a = deterministicEventId ext b ↔
      SamePieces a.identity b.identity := by
  unfold deterministicEventId
  rw [ext.uuidv5_injective.eq_iff]
  have hpieces : [BAR].intercalate (keyFields ext a) = [BAR].intercalate (keyFields ext b) ↔
      ((keyFields ext a).flatMap fun field => field.splitOn BAR) =
        (keyFields ext b).flatMap fun field => field.splitOn BAR :=
    LineSplit.intercalate_eq_iff
  rw [hpieces, flatMap_keyFields, flatMap_keyFields]
  constructor
  · intro heq
    simp only [cons_append, nil_append, List.cons.injEq] at heq
    obtain ⟨hserver, hkind, hts, htick, hrest⟩ := heq
    obtain ⟨hnames, hdamage⟩ := append_inj' hrest rfl
    exact ⟨hserver, CombatKind.text_injective hkind, toISOString_inj hts,
      ext.numberText_injective htick,
      damageText_injective ext (singleton_injective hdamage), hnames⟩
  · rintro ⟨hserver, hkind, hts, htick, hdamage, hnames⟩
    change a.serverId = b.serverId at hserver
    change a.kind = b.kind at hkind
    change a.ts = b.ts at hts
    change a.tick = b.tick at htick
    change a.damage = b.damage at hdamage
    rw [hserver, hkind, hts, htick, hdamage, hnames]

/-! ## What a sequence of handlings leaves -/

variable [DecidableEq P] [DecidableEq Id] {attempt : Attempt P M} {attempts : List (Attempt P M)}

/-- What an event is told apart by in its table. -/
def Attempt.eventKey (attempt : Attempt P M) : Id × JsDate :=
  (deterministicEventId ext attempt.command, attempt.command.ts)

section
variable (attempts : List (Attempt P M))

/-- The handlings that got through. -/
def committed : List (Attempt P M) :=
  attempts.filter (·.commits)

/-- The handlings that wrote: the first committed one of every key. -/
def recorded : List (Attempt P M) :=
  firsts (Attempt.eventKey ext) (committed attempts)

/-- The tables that some handlings have written. -/
def storeOf : Store P M Id where
  events := attempts.map (Attempt.eventRow ext)
  combatEvents := attempts.map (Attempt.combatEventRow ext)
  dossier := applyCombatEvents (attempts.map (Attempt.dossierEvent ext))

theorem hasEvent_storeOf (attempt : Attempt P M) :
    (storeOf ext attempts).hasEvent (deterministicEventId ext attempt.command)
        attempt.command.ts = true ↔
      attempt.eventKey ext ∈ attempts.map (Attempt.eventKey ext) := by
  unfold Store.hasEvent storeOf
  rw [any_map, any_eq_true, mem_map]
  apply exists_congr
  intro other
  apply and_congr_right
  intro _
  rw [Function.comp_apply, Bool.and_eq_true, Attempt.eventKey, Attempt.eventKey, Prod.mk.injEq]
  exact Iff.and decide_eq_true_iff decide_eq_true_iff

theorem record_storeOf (attempt : Attempt P M) : ((storeOf ext attempts).record ext attempt).1 =
      if attempt.eventKey ext ∈ attempts.map (Attempt.eventKey ext) then storeOf ext attempts
      else storeOf ext (attempts ++ [attempt]) := by
  have hhas := hasEvent_storeOf ext attempts attempt
  change (if (storeOf ext attempts).hasEvent (deterministicEventId ext attempt.command)
    attempt.command.ts = true then _ else _ : Store P M Id × Bool).1 = _
  by_cases hkey : attempt.eventKey ext ∈ attempts.map (Attempt.eventKey ext)
  · rw [if_pos (hhas.mpr hkey), if_pos hkey]
  · rw [if_neg (mt hhas.mp hkey), if_neg hkey]
    simp [storeOf, applyCombatEvents]

end

omit [DecidableEq P] in
theorem recorded_concat (attempts : List (Attempt P M)) (hcommits : attempt.commits = true) :
    recorded ext (attempts ++ [attempt]) =
      if attempt.eventKey ext ∈ (recorded ext attempts).map (Attempt.eventKey ext) then
        recorded ext attempts
      else recorded ext attempts ++ [attempt] := by
  have hseen : attempt.eventKey ext ∈ (recorded ext attempts).map (Attempt.eventKey ext) ↔
      attempt.eventKey ext ∈ (committed attempts).map (Attempt.eventKey ext) :=
    mem_map_firsts
  have hcommitted : committed (attempts ++ [attempt]) = committed attempts ++ [attempt] := by
    unfold committed
    rw [filter_append, filter_cons_of_pos hcommits, filter_nil]
  have hfirsts := firsts_concat (Attempt.eventKey ext) (committed attempts) attempt
  rw [← hcommitted] at hfirsts
  change recorded ext (attempts ++ [attempt]) = recorded ext attempts ++ _ at hfirsts
  rw [hfirsts]
  by_cases hkey : attempt.eventKey ext ∈ (committed attempts).map (Attempt.eventKey ext)
  · rw [if_pos hkey, if_pos (hseen.mpr hkey), append_nil]
  · rw [if_neg hkey, if_neg (mt hseen.mp hkey)]

/-- Handling after handling, the tables are those of the recorded handlings. -/
theorem handleAll_eq (attempts : List (Attempt P M)) :
    handleAll ext attempts = storeOf ext (recorded ext attempts) := by
  induction attempts using List.reverseRecOn with
  | nil => rfl
  | append_singleton attempts attempt ih =>
    unfold handleAll at ih ⊢
    rw [foldl_append, foldl_cons, foldl_nil, ih]
    unfold handleCombat
    by_cases hcommits : attempt.commits
    · rw [if_pos hcommits, recorded_concat ext attempts hcommits]
      rw [record_storeOf]
      split <;> rfl
    · rw [if_neg hcommits]
      unfold recorded committed
      rw [filter_append, filter_cons_of_neg hcommits, filter_nil, append_nil]

/-! ## Each command once -/

/-- The typed rows and the dossier are those of a choice of handlings with every committed
command in it once. -/
def ContainsEachOnce (store : Store P M Id) (attempts : List (Attempt P M)) : Prop :=
  ∃ chosen : List (Attempt P M), (∀ attempt ∈ chosen, attempt ∈ attempts) ∧
    store.combatEvents = chosen.map (Attempt.combatEventRow ext) ∧
    store.dossier = applyCombatEvents (chosen.map (Attempt.dossierEvent ext)) ∧
    (chosen.map (·.command.identity)).Nodup ∧
    ∀ attempt ∈ attempts, attempt.command.identity ∈ chosen.map (·.command.identity)

omit [DecidableEq P] [DecidableEq Id] in
theorem eventKey_eq_iff (a b : Attempt P M) :
    a.eventKey ext = b.eventKey ext ↔ SamePieces a.command.identity b.command.identity := by
  unfold Attempt.eventKey
  rw [Prod.mk.injEq, deterministicEventId_eq_iff]
  constructor
  · intro hsame
    exact hsame.1
  · intro hsame
    exact ⟨hsame, hsame.2.2.1⟩

/-- As many rows as commands leave no two different commands under one key. -/
theorem identity_eq_of_containsEachOnce
    (honce : ContainsEachOnce ext (handleAll ext attempts) (committed attempts))
    {a b : Attempt P M} (ha : a ∈ committed attempts) (hb : b ∈ committed attempts)
    (hsame : SamePieces a.command.identity b.command.identity) :
    a.command.identity = b.command.identity := by
  obtain ⟨chosen, hchosen, hrows, -, hnodup, hcovers⟩ := honce
  have hlength : chosen.length = (recorded ext attempts).length := by
    rw [handleAll_eq] at hrows
    simpa [storeOf] using (congrArg List.length hrows).symm
  -- the key is computed from the fields that tell commands apart
  let keyOf (identity : CommandIdentity) : Id × JsDate :=
    (ext.uuidv5 ([BAR].intercalate [identity.serverId, identity.kind.text,
      toISOString identity.ts, ext.numberText identity.tick, identity.attackerName.getD [],
      identity.victimName, identity.weapon.getD [],
      (identity.damage.map ext.numberText).getD []]), identity.ts)
  have hkey : ∀ attempt : Attempt P M,
      attempt.eventKey ext = keyOf attempt.command.identity := fun _ => rfl
  exact eq_of_key_eq_of_covers hkey hchosen hlength hnodup hcovers ha hb
    ((eventKey_eq_iff ext a b).mpr hsame)

/-- The recorded handlings are such a choice where keys tell the commands apart. -/
theorem containsEachOnce_of_distinct
    (hdistinct : ∀ a ∈ committed attempts, ∀ b ∈ committed attempts,
      SamePieces a.command.identity b.command.identity → a.command.identity = b.command.identity) :
    ContainsEachOnce ext (handleAll ext attempts) (committed attempts) := by
  rw [handleAll_eq]
  refine ⟨recorded ext attempts, fun _ => firsts_subset, rfl, rfl, ?_, ?_⟩
  · refine pairwise_map.mpr ((firsts_pairwise (committed attempts)).imp ?_)
    intro a b hkey hsame
    apply hkey
    rw [eventKey_eq_iff, hsame]
    exact ⟨rfl, rfl, rfl, rfl, rfl, rfl⟩
  · intro attempt hattempt
    obtain ⟨first, hfirst, hkey⟩ : ∃ first ∈ recorded ext attempts,
        first.eventKey ext = attempt.eventKey ext := exists_mem_firsts hattempt
    rw [eventKey_eq_iff] at hkey
    rw [← hdistinct first (firsts_subset hfirst) attempt hattempt hkey]
    exact mem_map_of_mem hfirst

/-- The tables contain each committed command once exactly when different ones among them are
told apart by more than the place of separators. -/
theorem handleAll_containsEachOnce_iff (attempts : List (Attempt P M)) :
    ContainsEachOnce ext (handleAll ext attempts) (committed attempts) ↔
      ∀ a ∈ committed attempts, ∀ b ∈ committed attempts,
        SamePieces a.command.identity b.command.identity →
          a.command.identity = b.command.identity := by
  constructor
  · intro honce a ha b hb hsame
    exact identity_eq_of_containsEachOnce ext honce ha hb hsame
  · exact containsEachOnce_of_distinct ext

/-! ## A separator in a name -/

/-- A runtime whose uuids are the names themselves. -/
def sampleExternals : Externals JsString where
  numberText n := decimalText (Encodable.encode n)
  numberText_injective := decimalText_injective.comp Encodable.encode_injective
  numberText_ne_nil _ := decimalText_ne_nil _
  numberText_plain _ := not_mem_decimalText (by decide) _
  toLowerCase := id
  uuidv5 := id
  uuidv5_injective := Function.injective_id

/-- A hit at a fixed time, by and on players that the log names only. -/
def sampleHit (attacker victim : JsString) : Attempt Nat Nat where
  command :=
    { serverId := js "6f1c", kind := .combatDamage, ts := ⟨1700000000000, by decide⟩, tick := 42
      attacker := some ⟨none, none, attacker⟩, victim := ⟨none, none, victim⟩
      weapon := some (js "BP_AK74"), damage := some 30, isSuicide := false
      attackerVehicle := none, serverId_plain := by decide }
  roster := []
  attackerPlayerId := none
  victimPlayerId := none
  matchId := none
  commits := true

/-- A hit that is handled twice is there once. -/
theorem handleAll_containsEachOnce_redelivered : let hit := sampleHit (js "[A] B") (js "C")
    ContainsEachOnce sampleExternals (handleAll sampleExternals [hit, hit])
      (committed [hit, hit]) := by
  intro hit
  refine (handleAll_containsEachOnce_iff sampleExternals [hit, hit]).mpr ?_
  intro a ha b hb _
  have hsame : ∀ attempt ∈ committed [hit, hit], attempt = hit := by
    intro attempt hattempt
    simpa using mem_of_mem_filter hattempt
  rw [hsame a ha, hsame b hb]

/-- "A|B" hits "C" and "A" hits "B|C", all else equal: one of the two is not there. -/
theorem handleAll_drops_hit : let first := sampleHit (js "A|B") (js "C")
    let second := sampleHit (js "A") (js "B|C")
    first.command.identity ≠ second.command.identity ∧
      ¬ ContainsEachOnce sampleExternals (handleAll sampleExternals [first, second])
        (committed [first, second]) := by
  intro first second
  have hne : first.command.identity ≠ second.command.identity := by
    intro heq
    have hvictim := congrArg CommandIdentity.victimName heq
    revert hvictim
    decide
  refine ⟨hne, fun honce => hne ?_⟩
  have hcommitted : committed [first, second] = [first, second] := rfl
  apply identity_eq_of_containsEachOnce sampleExternals honce
  · rw [hcommitted]
    exact mem_cons_self
  · rw [hcommitted]
    exact mem_cons_of_mem _ mem_cons_self
  · exact ⟨rfl, rfl, rfl, rfl, rfl, by decide⟩

end SquadPanel.LogIngest
