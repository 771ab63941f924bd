import SquadPanel.Economy.Ledger
import Mathlib.Tactic.Ring

/-!
# What a ledger transaction owes

A transaction keeps a tally: per player, how far the rows it has written so far run
ahead of what it has done to the balance.  It may commit only when that is zero for
everybody, and it may set a balance only after it has locked and read it.  The three
transactions keep to this whatever their statements answer.
-/

namespace SquadPanel.Economy

open Js Lib Prog List
open JsMap (getEntry)

variable {P Role K : Type}

/-! ## Tallies -/

section

variable [DecidableEq P]

/-- What the amounts add up to for one player. -/
def amountFor (p : P) (amounts : List (P × Int)) : Int :=
  (amounts.map fun r => if r.1 = p then r.2 else 0).sum

@[simp] theorem amountFor_nil (p : P) : amountFor p [] = 0 := rfl

theorem amountFor_cons (p : P) (r : P × Int) (amounts : List (P × Int)) :
    amountFor p (r :: amounts) = (if r.1 = p then r.2 else 0) + amountFor p amounts := rfl

theorem amountFor_eq_zero {p : P} {amounts : List (P × Int)} (hnone : ∀ r ∈ amounts, r.1 ≠ p) :
    amountFor p amounts = 0 :=
  sum_eq_zero (forall_mem_map.2 fun r hr => if_neg (hnone r hr))

def BonusTransaction.entry (row : BonusTransaction P) : P × Int := (row.playerId, row.amount)

/-- The state of a running transaction, as far as its own statements tell. -/
structure Tally (P : Type) where
  tx : TxId
  /-- the balance of a locked player, as the transaction sees it -/
  seen : P → Option Int
  /-- rows written minus balance changes -/
  drift : P → Int
  /-- the player has a row, as a statement has shown -/
  known : P → Prop

namespace Tally

def start (tx : TxId) : Tally P := ⟨tx, fun _ => none, fun _ => 0, fun _ => False⟩

section
variable (t : Tally P)

def Balanced : Prop := ∀ p, t.drift p = 0

def inserted (rows : List (BonusTransaction P)) : Tally P :=
  { t with
    drift := fun p => t.drift p + amountFor p (rows.map (·.entry))
    known := fun p => t.known p ∨ ∃ row ∈ rows, row.playerId = p }

def removed (amounts : List (P × Int)) : Tally P :=
  { t with
    drift := fun p => t.drift p - amountFor p amounts
    known := fun p => t.known p ∨ ∃ r ∈ amounts, r.1 = p }

def locked (rows : List (P × PlayerRow Role)) : Tally P :=
  { t with
    seen := fun p =>
      match getEntry p rows with
      | some row => some row.bonusBalance
      | none => t.seen p
    known := fun p => t.known p ∨ ∃ r ∈ rows, r.1 = p }

def changed (changes : List (P × Int)) : Tally P :=
  { t with
    seen := fun p => (t.seen p).map (· + (getEntry p changes).getD 0)
    drift := fun p => t.drift p - (getEntry p changes).getD 0 }

def set (id : P) (bonusBalance : Int) : Tally P :=
  { t with
    seen := fun p => if p = id then some bonusBalance else t.seen p
    drift := fun p =>
      if p = id then t.drift p - (bonusBalance - (t.seen p).getD 0) else t.drift p }

end

end Tally

/-- `wild` follows an answer that no database gives; nothing is owed after it. -/
inductive Books (P : Type) where
  | idle
  | running (t : Tally P)
  | wild

/-- What a running transaction may do next. -/
def Tally.Allows (t : Tally P) : Sql P Role → Prop
  | .begin => False
  | .commit tx => tx = t.tx ∧ t.Balanced
  | .updatePlayer tx id _ _ => tx = t.tx ∧ (t.seen id).isSome
  | .addToBalances tx changes => tx = t.tx ∧ ∀ r ∈ changes, t.known r.1
  | .advisoryXactLock tx _ | .selectSettings tx | .updateSeedSeconds tx _
  | .selectPresence tx _ | .deleteAccruals tx _ _ | .insertTransactions tx _
  | .selectForUpdate tx _ | .other tx | .rollback tx => tx = t.tx

def Tally.after (t : Tally P) : (e : Sql P Role) → Answer P Role K e → Books P
  | .deleteAccruals _ playerIds _, amounts =>
    if ∀ r ∈ amounts, r.1 ∈ playerIds then .running (t.removed amounts) else .wild
  | .insertTransactions _ rows, _ => .running (t.inserted rows)
  | .selectForUpdate _ ids, rows =>
    if ∀ r ∈ rows, r.1 ∈ ids then .running (t.locked rows) else .wild
  | .addToBalances _ changes, _ => .running (t.changed changes)
  | .updatePlayer _ id bonusBalance _, _ => .running (t.set id bonusBalance)
  | .commit _, _ | .rollback _, _ => .idle
  | .begin, _ => .wild
  | .advisoryXactLock _ _, _ | .selectSettings _, _ | .updateSeedSeconds _ _, _
  | .selectPresence _ _, _ | .other _, _ => .running t

def Books.opened : (e : Sql P Role) → Answer P Role K e → Books P
  | .begin, tx => .running (Tally.start tx)
  | _, _ => .wild

def Tally.failed (t : Tally P) : Sql P Role → Books P
  | .commit _ => .idle
  | _ => .running t

def ledgerProtocol : Protocol (Sql P Role) (Reply P Role K) (Books P) where
  pre e g :=
    match g with
    | .wild => True
    | .idle => e = .begin
    | .running t => t.Allows e
  next e r g :=
    match g, r with
    | .wild, _ => .wild
    | .idle, none => .idle
    | .idle, some a => Books.opened e a
    | .running t, none => t.failed e
    | .running t, some a => t.after e a

/-! ## Rules -/

/-- The transaction is still running and, unless it threw, `Q` holds of the result. -/
def Post {α : Type} (tx : TxId) (Q : α → Tally P → Prop) (res : Except Unit α) :
    Books P → Prop
  | .idle => False
  | .wild => True
  | .running t => t.tx = tx ∧ ∀ a, res = .ok a → Q a t

/-- Code of transaction `tx` that ends in `Q` when it is started in tally `t`. -/
def Ends {α : Type} (tx : TxId) (t : Tally P) (p : Query P Role K α) (Q : α → Tally P → Prop) :
    Prop :=
  Wp ledgerProtocol p.run (Post tx Q) (.running t)

theorem wp_wild {α : Type} (p : Prog (Sql P Role) (Reply P Role K) α) {Q : α → Books P → Prop}
    (hQ : ∀ a, Q a .wild) : Wp ledgerProtocol p Q .wild := by
  induction p with
  | ret a => exact hQ a
  | call e k ih => exact ⟨trivial, fun r => ih r⟩

section Rules

variable {α β : Type} {tx : TxId} {t : Tally P} {Q : α → Tally P → Prop} {p : Query P Role K α}

theorem ends_pure {a : α} (htx : t.tx = tx) (hQ : Q a t) :
    Ends tx t (pure a : Query P Role K α) Q := by
  refine ⟨htx, fun b hb => ?_⟩
  cases hb
  exact hQ

theorem ends_bind {f : α → Query P Role K β} {Q' : β → Tally P → Prop} (hp : Ends tx t p Q)
    (hf : ∀ a t', t'.tx = tx → Q a t' → Ends tx t' (f a) Q') : Ends tx t (p >>= f) Q' := by
  unfold Ends
  rw [wp_run_bind]
  refine wp_mono ?_ hp
  intro res g hpost
  cases g with
  | idle => exact hpost.elim
  | wild =>
    cases res with
    | ok a => exact wp_wild _ fun _ => trivial
    | error e => trivial
  | running t' =>
    cases res with
    | ok a => exact hf a t' hpost.1 (hpost.2 a rfl)
    | error e => exact ⟨hpost.1, nofun⟩

theorem ends_mono {Q' : α → Tally P → Prop} (hp : Ends tx t p Q)
    (himp : ∀ a t', t'.tx = tx → Q a t' → Q' a t') : Ends tx t p Q' := by
  refine wp_mono ?_ hp
  intro res g hpost
  cases g with
  | idle => exact hpost
  | wild => trivial
  | running t' => exact ⟨hpost.1, fun a ha => himp a t' hpost.1 (hpost.2 a ha)⟩

theorem ends_statement (e : Sql P Role) {Q : Answer P Role K e → Tally P → Prop}
    (hallows : t.Allows e) (hfailed : t.failed e = .running t) (htx : t.tx = tx)
    (hok : ∀ a, t.after e a = .wild ∨ ∃ t', t.after e a = .running t' ∧ t'.tx = tx ∧ Q a t') :
    Ends tx t (await e answer : Query P Role K (Answer P Role K e)) Q := by
  refine ⟨hallows, fun r => ?_⟩
  cases r with
  | none =>
    show Post tx Q (.error ()) (t.failed e)
    rw [hfailed]
    exact ⟨htx, nofun⟩
  | some a =>
    show Post tx Q (.ok a) (t.after e a)
    obtain hwild | ⟨t', hafter, htx', hQ⟩ := hok a
    · rw [hwild]
      trivial
    · rw [hafter]
      refine ⟨htx', fun b hb => ?_⟩
      cases hb
      exact hQ

section
variable (htx : t.tx = tx)
include htx

theorem ends_insertTransactions (rows : List (BonusTransaction P)) :
    Ends tx t (insertTransactions tx rows : Query P Role K Unit)
      fun _ t' => t' = t.inserted rows := by
  apply ends_statement (.insertTransactions tx rows) htx.symm rfl htx
  intro a
  exact .inr ⟨t.inserted rows, rfl, htx, rfl⟩

theorem ends_deleteAccruals (playerIds : List P) (day : String) :
    Ends tx t (deleteAccruals tx playerIds day : Query P Role K _) fun amounts t' =>
      t' = t.removed amounts ∧ ∀ r ∈ amounts, r.1 ∈ playerIds := by
  apply ends_statement (.deleteAccruals tx playerIds day) htx.symm rfl htx
  intro amounts
  by_cases hmine : ∀ r ∈ amounts, r.1 ∈ playerIds
  · exact .inr ⟨t.removed amounts, if_pos hmine, htx, rfl, hmine⟩
  · exact .inl (if_neg hmine)

theorem ends_selectForUpdate (ids : List P) :
    Ends tx t (selectForUpdate tx ids : Query P Role K _) fun rows t' =>
      t' = t.locked rows ∧ ∀ r ∈ rows, r.1 ∈ ids := by
  apply ends_statement (.selectForUpdate tx ids) htx.symm rfl htx
  intro rows
  by_cases hmine : ∀ r ∈ rows, r.1 ∈ ids
  · exact .inr ⟨t.locked rows, if_pos hmine, htx, rfl, hmine⟩
  · exact .inl (if_neg hmine)

theorem ends_addToBalances (changes : List (P × Int)) (hknown : ∀ r ∈ changes, t.known r.1) :
    Ends tx t (addToBalances tx changes : Query P Role K Unit)
      fun _ t' => t' = t.changed changes := by
  apply ends_statement (.addToBalances tx changes) ⟨htx.symm, hknown⟩ rfl htx
  intro a
  exact .inr ⟨t.changed changes, rfl, htx, rfl⟩

theorem ends_updatePlayer {id : P} (hseen : (t.seen id).isSome)
    (bonusBalance : Int) (role : Option (Role × Int)) :
    Ends tx t (updatePlayer tx id bonusBalance role : Query P Role K Unit)
      fun _ t' => t' = t.set id bonusBalance := by
  apply ends_statement (.updatePlayer tx id bonusBalance role) ⟨htx.symm, hseen⟩ rfl htx
  intro a
  exact .inr ⟨t.set id bonusBalance, rfl, htx, rfl⟩

end

/-- The statements that touch neither table. -/
def Quiet (tx : TxId) : Sql P Role → Prop
  | .advisoryXactLock tx' _ | .selectSettings tx' | .updateSeedSeconds tx' _
  | .selectPresence tx' _ | .other tx' => tx' = tx
  | _ => False

theorem ends_quiet (e : Sql P Role) (hquiet : Quiet tx e) (htx : t.tx = tx) :
    Ends tx t (await e answer : Query P Role K (Answer P Role K e)) fun _ t' => t' = t := by
  subst htx
  have hall : t.Allows e ∧ t.failed e = .running t ∧
      ∀ a : Answer P Role K e, t.after e a = .running t := by
    cases e <;> first | exact hquiet.elim | exact ⟨hquiet, rfl, fun a => rfl⟩
  apply ends_statement e hall.1 hall.2.1 rfl
  intro a
  exact .inr ⟨t, hall.2.2 a, rfl, rfl⟩

end Rules

/-- A transaction whose body ends balanced keeps to the protocol. -/
theorem wp_transaction {body : TxId → Query P Role K Unit}
    (hbody : ∀ tx, Ends tx (Tally.start tx) (body tx) fun _ t => t.Balanced) :
    Wp ledgerProtocol (transaction body) (fun _ _ => True) .idle := by
  refine ⟨rfl, fun r => ?_⟩
  cases r with
  | none => trivial
  | some tx =>
    rw [wp_bind]
    refine wp_mono ?_ (hbody tx)
    intro res g hpost
    cases g with
    | idle => exact hpost.elim
    | wild => exact wp_wild _ fun _ => trivial
    | running t =>
      cases res with
      | ok a => exact ⟨⟨hpost.1.symm, hpost.2 a rfl⟩, fun r => trivial⟩
      | error e => exact ⟨hpost.1.symm, fun r => trivial⟩

/-! ## The three transactions -/

section Single

variable {tx : TxId} {t : Tally P} {id : P}

theorem ends_selectPlayer (htx : t.tx = tx) (hbalanced : t.Balanced) (id : P) :
    Ends tx t (selectForUpdate tx [id] : Query P Role K _) fun rows t' => t'.Balanced ∧
      (rows = [] ∨ ∃ row rest, rows = (id, row) :: rest ∧ t'.seen id = some row.bonusBalance) := by
  apply ends_mono (ends_selectForUpdate htx [id])
  rintro rows t' _ ⟨rfl, hmine⟩
  refine ⟨hbalanced, ?_⟩
  cases rows with
  | nil => exact .inl rfl
  | cons head rest =>
    obtain ⟨id', row⟩ := head
    obtain rfl : id' = id := by simpa using hmine _ mem_cons_self
    exact .inr ⟨row, rest, rfl, by simp [Tally.locked, getEntry]⟩

theorem balanced_set (row : BonusTransaction P) {b : Int} (hbalanced : t.Balanced)
    (hseen : t.seen id = some b) (hid : row.playerId = id) :
    ((t.inserted [row]).set id (b + row.amount)).Balanced := by
  intro p
  have hp := hbalanced p
  by_cases heq : p = id
  · subst heq
    simp [Tally.set, Tally.inserted, amountFor, BonusTransaction.entry, hseen, hid, hp]
  · have hne : id ≠ p := fun h => heq h.symm
    simp [Tally.set, Tally.inserted, amountFor, BonusTransaction.entry, hid, hp, heq, hne]

theorem balanced_set_same {b : Int} (hbalanced : t.Balanced) (hseen : t.seen id = some b) :
    (t.set id b).Balanced := by
  intro p
  have hp := hbalanced p
  by_cases heq : p = id
  · subst heq
    simp [Tally.set, hseen, hp]
  · simp [Tally.set, heq, hp]

end Single

variable (input : ApplyVipGrantInput P Role)

theorem ends_applyVipGrant [DecidableEq Role] {tx : TxId} {t : Tally P}
    (htx : t.tx = tx) (hbalanced : t.Balanced) :
    Ends tx t (applyVipGrant tx input : Query P Role K _) fun _ t' => t'.Balanced := by
  apply ends_bind (ends_selectPlayer htx hbalanced input.playerId)
  rintro _ t' htx' ⟨hlocked, rfl | ⟨current, rest, rfl, hseen⟩⟩
  · exact ends_pure htx' hlocked
  dsimp only
  split
  · next price nextBalance roleId roleExpiresAt hplan =>
    obtain ⟨hprice, hnext, _, _⟩ := planVipGrant_ok hplan
    split
    · apply ends_bind (ends_insertTransactions htx' [input.spendRow price])
      rintro _ t₁ htx₁ rfl
      apply ends_bind (ends_updatePlayer htx₁ (by simp [Tally.inserted, hseen]) _ _)
      rintro _ t₂ htx₂ rfl
      refine ends_pure htx₂ ?_
      have hset := balanced_set (input.spendRow price) hlocked hseen rfl
      have hamount : nextBalance = current.bonusBalance + (input.spendRow price).amount := by
        rw [hnext, ← hprice]
        exact Int.sub_eq_add_neg
      rw [hamount]
      exact hset
    · next hfree =>
      have hsame : nextBalance = current.bonusBalance := by
        have hzero : price = 0 := not_not.1 hfree
        rw [hnext, ← hprice, hzero, sub_zero]
      apply ends_bind (ends_updatePlayer htx' (by rw [hseen]; rfl) _ _)
      rintro _ t₁ htx₁ rfl
      refine ends_pure htx₁ ?_
      rw [hsame]
      exact balanced_set_same hlocked hseen
  · exact ends_pure htx' hlocked

theorem wp_vipGrantTransaction [DecidableEq Role] :
    Wp ledgerProtocol (vipGrantTransaction input : Prog (Sql P Role) (Reply P Role K) Unit)
      (fun _ _ => True) .idle := by
  apply wp_transaction
  intro tx
  apply ends_bind (ends_quiet (.other tx) rfl rfl)
  rintro _ t htx rfl
  apply ends_bind (ends_applyVipGrant input htx fun _ => rfl)
  intro _ t' htx' hbalanced
  apply ends_mono (ends_quiet (.other tx) rfl htx')
  rintro _ t₂ _ rfl
  exact hbalanced

theorem wp_bonusAdjustment (playerId : P) (amount : Int) :
    Wp ledgerProtocol (bonusAdjustment playerId amount : Prog (Sql P Role) (Reply P Role K) Unit)
      (fun _ _ => True) .idle := by
  apply wp_transaction
  intro tx
  apply ends_bind (ends_selectPlayer rfl (fun _ => rfl) playerId)
  rintro _ t htx ⟨hlocked, rfl | ⟨current, rest, rfl, hseen⟩⟩
  · exact ends_pure htx hlocked
  dsimp only
  split
  · exact ends_pure htx hlocked
  · apply ends_bind (ends_insertTransactions htx [adjustRow playerId amount])
    rintro _ t₁ htx₁ rfl
    apply ends_bind (ends_updatePlayer htx₁ (by simp [Tally.inserted, hseen]) _ _)
    rintro _ t₂ htx₂ rfl
    apply ends_mono (ends_quiet (.other tx) rfl htx₂)
    rintro _ t₃ _ rfl
    exact balanced_set (adjustRow playerId amount) hlocked hseen rfl

/-! ## The maps of the accrual -/

theorem get_sumByPlayer_foldl (amounts : List (P × Int)) (sums : JsMap P Int) (p : P) :
    ((amounts.foldl (fun sums r => sums.set r.1 ((sums.get r.1).getD 0 + r.2)) sums).get
      p).getD 0 = (sums.get p).getD 0 + amountFor p amounts := by
  induction amounts generalizing sums with
  | nil => simp
  | cons r amounts ih =>
    rw [foldl_cons, ih, JsMap.get_set, amountFor_cons]
    by_cases heq : r.1 = p
    · simp [heq]
      ring
    · simp [heq]

theorem get_sumByPlayer (amounts : List (P × Int)) (p : P) :
    ((sumByPlayer amounts).get p).getD 0 = amountFor p amounts := by
  have hfold := get_sumByPlayer_foldl amounts .empty p
  rw [JsMap.get_empty, Option.getD_none, zero_add] at hfold
  exact hfold

theorem get_deltaByPlayer (playerIds : List P) (added removed : JsMap P Int) (p : P) :
    (deltaByPlayer playerIds added removed).get p =
      if p ∈ playerIds then some ((added.get p).getD 0 - (removed.get p).getD 0) else none := by
  have hmem : p ∈ playerIds ↔ p ∈ playerIds.reverse := mem_reverse.symm
  simp only [deltaByPlayer, JsMap.get_ofEntries, ← map_reverse, hmem]
  induction playerIds.reverse with
  | nil => rfl
  | cons q rest ih =>
    rw [map_cons, getEntry, ih]
    by_cases hq : q = p
    · simp [hq]
    · simp [hq, Ne.symm hq]

/-- A map's entries add up to its value at the key. -/
theorem amountFor_entries (m : JsMap P Int) (p : P) : amountFor p m.entries = (m.get p).getD 0 := by
  obtain ⟨entries, hnodup⟩ := m
  unfold JsMap.get
  induction entries with
  | nil => rfl
  | cons entry rest ih =>
    rw [map_cons, nodup_cons] at hnodup
    rw [amountFor_cons, getEntry]
    by_cases heq : entry.1 = p
    · have hrest : amountFor p rest = 0 := by
        apply amountFor_eq_zero
        intro r hr hkey
        rw [heq, ← hkey] at hnodup
        exact hnodup.1 (mem_map_of_mem hr)
      simp [heq, hrest]
    · simpa [heq] using ih hnodup.2

theorem getEntry_filter_map {entries : List (P × Int)} (hnodup : (entries.map Prod.fst).Nodup)
    (f : P → Int → Int) (p : P) :
    (getEntry p ((entries.map fun e => (e.1, f e.1 e.2)).filter fun r => r.2 ≠ 0)).getD 0 =
      ((getEntry p entries).map (f p)).getD 0 := by
  induction entries with
  | nil => rfl
  | cons entry rest ih =>
    obtain ⟨key, value⟩ := entry
    rw [map_cons, nodup_cons] at hnodup
    have hrest := ih hnodup.2
    by_cases hkey : key = p
    · subst hkey
      by_cases hzero : f key value = 0
      · -- the key does not come again, so its filtered entry leaves no trace
        have hnone : getEntry key rest = none := by
          cases hget : getEntry key rest with
          | none => rfl
          | some v =>
            have hmem := JsMap.mem_keys_of_get (m := ⟨rest, hnodup.2⟩) (k := key)
              (by rw [JsMap.get, hget]; rfl)
            exact absurd hmem hnodup.1
        rw [hnone] at hrest
        simpa [hzero, getEntry] using hrest
      · simp [hzero, getEntry]
    · by_cases hzero : f key value = 0 <;> simpa [hzero, getEntry, hkey] using hrest

theorem getEntry_balanceChanges (deltas shortfalls : JsMap P Int) (p : P) :
    (getEntry p (balanceChanges deltas shortfalls)).getD 0 =
      ((deltas.get p).map fun delta => delta + (shortfalls.get p).getD 0).getD 0 :=
  getEntry_filter_map deltas.nodup (fun q delta => delta + (shortfalls.get q).getD 0) p

theorem mem_shortfallByPlayer {deltas : JsMap P Int} {balances : List (P × PlayerRow Role)}
    {p : P} (hget : ((shortfallByPlayer deltas balances).get p).isSome) :
    ∃ row, (p, row) ∈ balances := by
  obtain ⟨v, hv⟩ := Option.isSome_iff_exists.1 hget
  obtain ⟨⟨id, row⟩, hmem, heq⟩ := mem_filterMap.1 (JsMap.mem_of_get_ofEntries hv)
  dsimp only at heq
  split at heq
  · cases heq
    exact ⟨row, hmem⟩
  · cases heq

section Changes

variable {playerIds : List P} {added removed : List (P × Int)} {shortfalls : JsMap P Int}

section
variable {known : P → Prop} (hadded : ∀ r ∈ added, known r.1) (hremoved : ∀ r ∈ removed, known r.1)
  (hforgiven : ∀ p, (shortfalls.get p).isSome → known p)
include hadded hremoved hforgiven

theorem nothing_of_not_known {p : P} (hunknown : ¬ known p) :
    amountFor p added = 0 ∧ amountFor p removed = 0 ∧ shortfalls.get p = none :=
  ⟨amountFor_eq_zero fun r hr hkey => hunknown (hkey ▸ hadded r hr),
    amountFor_eq_zero fun r hr hkey => hunknown (hkey ▸ hremoved r hr),
    Option.not_isSome_iff_eq_none.1 fun hsome => hunknown (hforgiven p hsome)⟩

/-- Whose balance changes has an added or a removed row or a shortfall. -/
theorem known_of_mem_balanceChanges {r : P × Int} (hr : r ∈ balanceChanges
      (deltaByPlayer playerIds (sumByPlayer added) (sumByPlayer removed)) shortfalls) :
    known r.1 := by
  by_contra hunknown
  obtain ⟨hmem, hne⟩ := mem_filter.1 hr
  obtain ⟨⟨playerId, delta⟩, hentry, rfl⟩ := mem_map.1 hmem
  have hdelta := JsMap.get_eq_some_of_mem hentry
  obtain ⟨hnoAdded, hnoRemoved, hnoShortfall⟩ :=
    nothing_of_not_known hadded hremoved hforgiven hunknown
  rw [get_deltaByPlayer, get_sumByPlayer, get_sumByPlayer, hnoAdded, hnoRemoved] at hdelta
  split at hdelta
  · cases hdelta
    simp [hnoShortfall] at hne
  · cases hdelta

end

/-- The change of a balance is what was added, minus what was removed, plus what was
forgiven. -/
theorem balanceChanges_eq (hadded : ∀ r ∈ added, r.1 ∈ playerIds)
    (hremoved : ∀ r ∈ removed, r.1 ∈ playerIds)
    (hforgiven : ∀ p, (shortfalls.get p).isSome → p ∈ playerIds) (p : P) :
    (getEntry p (balanceChanges
      (deltaByPlayer playerIds (sumByPlayer added) (sumByPlayer removed)) shortfalls)).getD 0 =
      amountFor p added - amountFor p removed + (shortfalls.get p).getD 0 := by
  rw [getEntry_balanceChanges, get_deltaByPlayer, get_sumByPlayer, get_sumByPlayer]
  by_cases hp : p ∈ playerIds
  · rw [if_pos hp, Option.map_some, Option.getD_some]
  · obtain ⟨hnoAdded, hnoRemoved, hnoShortfall⟩ :=
      nothing_of_not_known hadded hremoved hforgiven hp
    rw [if_neg hp, hnoAdded, hnoRemoved, hnoShortfall]
    rfl

end Changes

/-! ## The accrual -/

theorem drift_inserted (t : Tally P) (rows : List (BonusTransaction P)) (p : P) :
    (t.inserted rows).drift p = t.drift p + amountFor p (rows.map (·.entry)) := rfl

section Accrual

variable {tx : TxId} {t : Tally P} (htx : t.tx = tx)

include htx

theorem ends_removeAccruals (playerIds : List P) (day : String) :
    Ends tx t (removeAccruals tx playerIds day : Query P Role K _) fun amounts t' =>
      (∀ p, t'.drift p = t.drift p - amountFor p amounts) ∧ (∀ r ∈ amounts, t'.known r.1) ∧
        ∀ r ∈ amounts, r.1 ∈ playerIds := by
  unfold removeAccruals
  split
  · refine ends_pure htx ⟨fun p => ?_, by simp, by simp⟩
    rw [amountFor_nil, sub_zero]
  · apply ends_mono (ends_deleteAccruals htx playerIds day)
    rintro amounts t' _ ⟨rfl, hmine⟩
    exact ⟨fun _ => rfl, fun r hr => .inr ⟨r, hr, rfl⟩, hmine⟩

theorem ends_insertAll {α : Type} [DecidableEq α] (items : List α) (row : α → BonusTransaction P) :
    Ends tx t (unlessEmpty items (insertTransactions tx (items.map row)) : Query P Role K Unit)
      fun _ t' =>
        (∀ p, t'.drift p = t.drift p + amountFor p (items.map fun a => (row a).entry)) ∧
          (∀ a ∈ items, t'.known (row a).playerId) ∧ ∀ p, t.known p → t'.known p := by
  unfold unlessEmpty
  split
  · next hempty =>
    refine ends_pure htx ⟨fun p => ?_, by simp [hempty], fun _ h => h⟩
    rw [hempty, map_nil, amountFor_nil, add_zero]
  · apply ends_mono (ends_insertTransactions htx _)
    rintro _ t' _ rfl
    refine ⟨fun p => ?_, fun a ha => .inr ?_, fun p hp => .inl hp⟩
    · rw [drift_inserted, map_map]
      rfl
    · exact ⟨row a, mem_map_of_mem ha, rfl⟩

theorem ends_changeAll (changes : List (P × Int)) (hknown : ∀ r ∈ changes, t.known r.1) :
    Ends tx t (unlessEmpty changes (addToBalances tx changes) : Query P Role K Unit)
      fun _ t' => ∀ p, t'.drift p = t.drift p - (getEntry p changes).getD 0 := by
  unfold unlessEmpty
  split
  · next hempty =>
    refine ends_pure htx fun p => ?_
    rw [hempty, getEntry, Option.getD_none, sub_zero]
  · apply ends_mono (ends_addToBalances htx changes hknown)
    rintro _ t' _ rfl p
    rfl

/-- What was forgiven is exactly what the adjustment rows add up to. -/
theorem ends_forgiveShortfall (day : String) (deltas : JsMap P Int) :
    Ends tx t (forgiveShortfall tx day deltas : Query P Role K _) fun shortfalls t' =>
      (∀ p, t'.drift p = t.drift p + (shortfalls.get p).getD 0) ∧
        (∀ p, (shortfalls.get p).isSome → t'.known p) ∧ (∀ p, t.known p → t'.known p) ∧
          ∀ p, (shortfalls.get p).isSome → p ∈ deltas.keys := by
  unfold forgiveShortfall
  dsimp only
  split
  · refine ends_pure htx ⟨fun p => by simp, fun p hp => ?_, fun p hp => hp, fun p hp => ?_⟩ <;>
      cases hp
  · apply ends_bind (ends_selectForUpdate htx _)
    rintro balances t₁ htx₁ ⟨rfl, hmine⟩
    apply ends_bind (ends_insertAll htx₁ _ _)
    rintro _ t₂ htx₂ ⟨hdrift, _, hmono⟩
    refine ends_pure htx₂ ⟨fun p => ?_, fun p hp => ?_, fun p hp => hmono p (.inl hp),
      fun p hp => ?_⟩
    · rw [hdrift p, ← amountFor_entries]
      simp only [BonusTransaction.entry, accrualRow, Prod.mk.eta, map_id']
      rfl
    · obtain ⟨row, hrow⟩ := mem_shortfallByPlayer hp
      exact hmono p (.inr ⟨(p, row), hrow, rfl⟩)
    · obtain ⟨row, hrow⟩ := mem_shortfallByPlayer hp
      obtain ⟨entry, hentry, hfst⟩ := mem_map.1 (hmine (p, row) hrow)
      exact mem_map.2 ⟨entry, (mem_filter.1 hentry).1, hfst⟩

/-- The balance changes make up for the rows that were removed, inserted and forgiven. -/
theorem ends_rewriteLedger (hstart : t.Balanced) (arith : Arithmetic K) (day : String)
    (settings : EconomySettings K) (aggregates : List (PresenceAgg P)) :
    Ends tx t (rewriteLedger arith tx day settings aggregates : Query P Role K Unit)
      fun _ t' => t'.Balanced := by
  unfold rewriteLedger
  generalize hplayers : aggregates.map (·.playerId) = playerIds
  generalize hinserts : (desiredRows arith settings day aggregates).filter
    (fun r => r.amount ≠ 0) = insertRows
  have hlisted : ∀ r ∈ insertRows, r.playerId ∈ playerIds := by
    intro r hr
    rw [← hinserts] at hr
    rw [← hplayers]
    exact mem_desiredRows (mem_filter.1 hr).1
  apply ends_bind (ends_removeAccruals htx playerIds day)
  rintro removed t₁ htx₁ ⟨hremoved, hknown₁, hmine⟩
  have hinsert : Ends tx t₁ (unlessEmpty insertRows
      (insertTransactions tx (insertRows.map id)) : Query P Role K Unit) _ :=
    ends_insertAll htx₁ insertRows id
  rw [map_id] at hinsert
  apply ends_bind hinsert
  rintro _ t₂ htx₂ ⟨hinserted, hknown₂, hmono₂⟩
  apply ends_bind (ends_forgiveShortfall htx₂ day _)
  rintro shortfalls t₃ htx₃ ⟨hforgiven, hknown₃, hmono₃, hkeys⟩
  have hadded : ∀ r ∈ insertRows.map (·.entry), r.1 ∈ playerIds := by
    intro r hr
    obtain ⟨row, hrow, rfl⟩ := mem_map.1 hr
    exact hlisted row hrow
  have haddedKnown : ∀ r ∈ insertRows.map (·.entry), t₃.known r.1 := by
    intro r hr
    obtain ⟨row, hrow, rfl⟩ := mem_map.1 hr
    exact hmono₃ _ (hknown₂ row hrow)
  have hforgivenListed : ∀ p, (shortfalls.get p).isSome → p ∈ playerIds := by
    intro p hp
    obtain ⟨q, hq, hpair⟩ := mem_map.1 (hkeys p hp)
    have hget := JsMap.get_eq_some_of_mem (show (q.1, q.2) ∈ _ from hq)
    rw [hpair, get_deltaByPlayer] at hget
    by_contra hnot
    rw [if_neg hnot] at hget
    cases hget
  apply ends_mono (ends_changeAll htx₃ _ ?_)
  · intro _ t₄ _ hchanged p
    have hchange := balanceChanges_eq hadded hmine hforgivenListed p
    rw [hchanged, hforgiven, hinserted, hremoved, hstart p]
    show 0 - amountFor p removed + amountFor p (insertRows.map (·.entry)) +
      (shortfalls.get p).getD 0 - (getEntry p (balanceChanges
        (deltaByPlayer playerIds (sumByPlayer (insertRows.map (·.entry)))
          (sumByPlayer removed)) shortfalls)).getD 0 = 0
    rw [hchange]
    ring
  · intro r hr
    exact known_of_mem_balanceChanges haddedKnown
      (fun q hq => hmono₃ _ (hmono₂ _ (hknown₁ q hq))) hknown₃ hr

end Accrual

theorem wp_accrueDailyBonuses (arith : Arithmetic K) (day : String) :
    Wp ledgerProtocol (accrueDailyBonuses arith day : Prog (Sql P Role) (Reply P Role K) Unit)
      (fun _ _ => True) .idle := by
  apply wp_transaction
  intro tx
  apply ends_bind (ends_quiet (.advisoryXactLock tx day) rfl rfl)
  rintro _ t htx rfl
  apply ends_bind (ends_quiet (.selectSettings tx) rfl htx)
  rintro settings t₁ htx₁ rfl
  apply ends_bind (ends_quiet (.updateSeedSeconds tx day) rfl htx₁)
  rintro _ t₂ htx₂ rfl
  have hstart : (Tally.start tx : Tally P).Balanced := fun _ => rfl
  cases settings with
  | none => exact ends_pure htx₂ hstart
  | some settings =>
    dsimp only
    split
    · apply ends_bind (ends_quiet (.selectPresence tx day) rfl htx₂)
      rintro aggregates t₃ htx₃ rfl
      exact ends_rewriteLedger htx₃ hstart arith day settings aggregates
    · exact ends_pure htx₂ hstart

end

end SquadPanel.Economy
