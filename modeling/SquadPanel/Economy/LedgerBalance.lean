import SquadPanel.Economy.Bookkeeping
import SquadPanel.Economy.Database

/-!
# What a statement does to the books

A statement of a transaction is of no concern to the other transactions, it keeps the
tally of its own transaction in step with the database, and only a commit changes what
is committed.
-/

namespace SquadPanel.Economy

open Js Lib Versioned List

variable {P Role K : Type}

namespace Db

/-- What a transaction has done to the balance of a player so far. -/
def pending (db : Db P Role) (tx : TxId) (p : P) : Int :=
  match db.players p with
  | some c => (c.view tx).bonusBalance - c.value.bonusBalance
  | none => 0

theorem pending_of_not_heldBy {db : Db P Role} {y : TxId} {p : P}
    (hnot : ∀ c, db.players p = some c → ¬ c.HeldBy y) : db.pending y p = 0 := by
  unfold pending
  split
  · next c hc => rw [Cell.view_of_not_heldBy (hnot c hc), sub_self]
  · rfl

theorem mem_rowsForUpdate {db : Db P Role} {tx : TxId} {ids : List P} {r : P × PlayerRow Role}
    (hr : r ∈ db.rowsForUpdate tx ids) : r.1 ∈ ids ∧ (db.players r.1).isSome := by
  obtain ⟨id, hid, heq⟩ := mem_filterMap.1 hr
  obtain ⟨c, hc, rfl⟩ := Option.map_eq_some_iff.1 heq
  exact ⟨hid, by rw [hc]; rfl⟩

theorem txOf_of_allows {t : Tally P} {e : Sql P Role} (hallows : t.Allows e) :
    txOf e = some t.tx := by
  cases e <;> first
    | exact hallows.elim
    | exact congrArg some hallows.1
    | exact congrArg some hallows

end Db

variable [DecidableEq P]

/-- The amount of a row, for one player. -/
def weight (p : P) (row : BonusTransaction P) : Int :=
  if row.playerId = p then row.amount else 0

theorem sum_weight (p : P) (rows : List (BonusTransaction P)) :
    (rows.map (weight p)).sum = amountFor p (rows.map (·.entry)) := by
  rw [amountFor, map_map]
  rfl

namespace Db

/-- The tally of a transaction agrees with what the database holds for it. -/
structure Matches (db : Db P Role) (t : Tally P) : Prop where
  drift : ∀ p, added t.tx (weight p) db.ledger - removed t.tx (weight p) db.ledger -
    db.pending t.tx p = t.drift p
  seen : ∀ p b, t.seen p = some b →
    ∃ c row, db.players p = some c ∧ c.draft = some (t.tx, row) ∧ row.bonusBalance = b
  known : ∀ p, t.known p → (db.players p).isSome

/-- The invariant of the database.  `base p` is what the balance of `p` exceeds the ledger
by. -/
structure Sound (base : P → Int) (db : Db P Role) : Prop where
  books : ∀ p c, db.players p = some c →
    c.value.bonusBalance = base p + settled (weight p) db.ledger
  newcomers : ∀ p, db.players p = none → base p = 0
  stamped : WellStamped db.ledger
  known : ∀ e ∈ db.ledger, (db.players e.row.playerId).isSome
  unused : ∀ x, db.nextTx ≤ x → Unused x db.ledger
  unlocked : ∀ x, db.nextTx ≤ x → ∀ p c, db.players p = some c → ¬ c.HeldBy x
  live : ∀ x ∈ db.live, x < db.nextTx

/-! ## What concerns one transaction -/

/-- Nothing that concerns `y` has changed. -/
structure Unmoved (y : TxId) (db db' : Db P Role) : Prop where
  cells : ∀ p, db'.players p = db.players p ∨
    (∀ c, db.players p = some c → ¬ c.HeldBy y) ∧
      ∃ c', db'.players p = some c' ∧ ¬ c'.HeldBy y
  added : ∀ p, added y (weight p) db'.ledger = added y (weight p) db.ledger
  removed : ∀ p, removed y (weight p) db'.ledger = removed y (weight p) db.ledger

section Unmoved

variable {y : TxId} {db db' : Db P Role}

theorem Unmoved.pending (hunmoved : Unmoved y db db') (p : P) :
    db'.pending y p = db.pending y p := by
  obtain heq | ⟨hnot, c', hc', hnot'⟩ := hunmoved.cells p
  · unfold Db.pending
    rw [heq]
  · rw [pending_of_not_heldBy hnot]
    apply pending_of_not_heldBy
    intro c hc
    rw [hc'] at hc
    cases hc
    exact hnot'

theorem Unmoved.matches {t : Tally P} (hunmoved : Unmoved t.tx db db')
    (hmatches : Matches db t) : Matches db' t where
  drift p := by
    rw [hunmoved.added p, hunmoved.removed p, hunmoved.pending p]
    exact hmatches.drift p
  seen p b hseen := by
    obtain ⟨c, row, hc, hdraft, hbalance⟩ := hmatches.seen p b hseen
    obtain heq | ⟨hnot, _⟩ := hunmoved.cells p
    · exact ⟨c, row, by rw [heq, hc], hdraft, hbalance⟩
    · exact absurd ⟨row, hdraft⟩ (hnot c hc)
  known p hp := by
    obtain heq | ⟨_, c', hc', _⟩ := hunmoved.cells p
    · rw [heq]
      exact hmatches.known p hp
    · rw [hc']
      rfl

end Unmoved

/-! ## Statements of a transaction -/

/-- What a statement of `tx` may do. -/
structure Acts (tx : TxId) (db db' : Db P Role) : Prop where
  cells : ∀ p, db'.players p = db.players p ∨
    ∃ c c', db.players p = some c ∧ c.Free tx ∧ db'.players p = some c' ∧
      ∀ y, y ≠ tx → ¬ c'.HeldBy y
  added : ∀ y, y ≠ tx → ∀ p, added y (weight p) db'.ledger = added y (weight p) db.ledger
  removed : ∀ y, y ≠ tx → ∀ p, removed y (weight p) db'.ledger = removed y (weight p) db.ledger
  stamped : WellStamped db'.ledger
  unused : ∀ y, y ≠ tx → Unused y db.ledger → Unused y db'.ledger
  rows : ∀ e ∈ db'.ledger, (∃ e₀ ∈ db.ledger, e₀.row = e.row) ∨ (db.players e.row.playerId).isSome
  nextTx : db'.nextTx = db.nextTx
  live : ∀ x ∈ db'.live, x ∈ db.live

/-- Nothing committed has changed. -/
structure Quiet (db db' : Db P Role) : Prop where
  values : ∀ p c', db'.players p = some c' →
    ∃ c, db.players p = some c ∧ c'.value.bonusBalance = c.value.bonusBalance
  settled : ∀ p, settled (weight p) db'.ledger = settled (weight p) db.ledger

section Acts

variable {tx : TxId} {db db' : Db P Role} {base : P → Int}

theorem Acts.isSome (hacts : Acts tx db db') {p : P} (hp : (db.players p).isSome) :
    (db'.players p).isSome := by
  obtain heq | ⟨_, _, _, _, heq, _⟩ := hacts.cells p
  · rw [heq]
    exact hp
  · rw [heq]
    rfl

/-- A statement is of no concern to the other transactions. -/
theorem Acts.unmoved (hacts : Acts tx db db') {y : TxId} (hne : y ≠ tx) : Unmoved y db db' where
  cells p := by
    obtain heq | ⟨c, c', hc, hfree, heq, hnot⟩ := hacts.cells p
    · exact .inl heq
    · right
      refine ⟨fun c₀ hc₀ => ?_, c', heq, hnot y hne⟩
      rw [hc] at hc₀
      cases hc₀
      exact Cell.not_heldBy_of_free hfree hne
  added := hacts.added y hne
  removed := hacts.removed y hne

theorem Acts.sound (hacts : Acts tx db db') (hsound : Sound base db) (htx : tx < db.nextTx)
    (hbooks : ∀ p c, db'.players p = some c →
      c.value.bonusBalance = base p + Versioned.settled (weight p) db'.ledger) :
    Sound base db' where
  books := hbooks
  newcomers p hp := by
    obtain heq | ⟨_, _, _, _, heq, _⟩ := hacts.cells p
    · exact hsound.newcomers p (by rw [← heq, hp])
    · rw [heq] at hp
      cases hp
  stamped := hacts.stamped
  known e he := by
    obtain ⟨e₀, he₀, heq⟩ | hknown := hacts.rows e he
    · rw [← heq]
      exact hacts.isSome (hsound.known e₀ he₀)
    · exact hacts.isSome hknown
  unused x hx := by
    rw [hacts.nextTx] at hx
    exact hacts.unused x (lt_of_lt_of_le htx hx).ne' (hsound.unused x hx)
  unlocked x hx p c hc := by
    rw [hacts.nextTx] at hx
    obtain heq | ⟨_, c', _, _, heq, hnot⟩ := hacts.cells p
    · exact hsound.unlocked x hx p c (by rw [← heq, hc])
    · rw [heq] at hc
      cases hc
      exact hnot x (lt_of_lt_of_le htx hx).ne'
  live x hx := by
    rw [hacts.nextTx]
    exact hsound.live x (hacts.live x hx)

theorem Quiet.books (hquiet : Quiet db db') (hsound : Sound base db) (p : P)
    (c : Cell TxId (PlayerRow Role)) (hc : db'.players p = some c) :
    c.value.bonusBalance = base p + Versioned.settled (weight p) db'.ledger := by
  obtain ⟨c₀, hc₀, hvalue⟩ := hquiet.values p c hc
  rw [hvalue, hquiet.settled p]
  exact hsound.books p c₀ hc₀

theorem acts_of_same (hstamped : WellStamped db.ledger) (hplayers : db'.players = db.players)
    (hledger : db'.ledger = db.ledger) (hnext : db'.nextTx = db.nextTx)
    (hlive : db'.live = db.live) : Acts tx db db' where
  cells p := .inl (by rw [hplayers])
  added y _ p := by rw [hledger]
  removed y _ p := by rw [hledger]
  stamped := by rwa [hledger]
  unused y _ h := by rwa [hledger]
  rows e he := .inl ⟨e, by rwa [← hledger], rfl⟩
  nextTx := hnext
  live x hx := by rwa [← hlive]

theorem quiet_of_same (hplayers : db'.players = db.players) (hledger : db'.ledger = db.ledger) :
    Quiet db db' where
  values p c' hc' := ⟨c', by rw [← hplayers, hc'], rfl⟩
  settled p := by rw [hledger]

section
variable (hstamped : WellStamped db.ledger)
include hstamped

theorem acts_insert (rows : List (BonusTransaction P))
    (hknown : ∀ row ∈ rows, (db.players row.playerId).isSome) :
    Acts tx db { db with ledger := insert tx rows db.ledger } where
  cells p := .inl rfl
  added y hne p := added_insert_of_ne rows hne
  removed y _ p := removed_insert rows
  stamped := wellStamped_insert rows hstamped
  unused y hne h := unused_insert rows h hne
  rows e he := by
    obtain he | he := mem_append.1 he
    · exact .inl ⟨e, he, rfl⟩
    · obtain ⟨row, hrow, rfl⟩ := mem_map.1 he
      exact .inr (hknown row hrow)
  nextTx := rfl
  live x hx := hx

theorem acts_delete (p : BonusTransaction P → Prop)
    [DecidablePred p] : Acts tx db { db with ledger := delete tx p db.ledger } where
  cells q := .inl rfl
  added y _ q := added_delete p
  removed y hne q := removed_delete_of_ne p hne
  stamped := wellStamped_delete p hstamped
  unused y hne h := unused_delete p h hne
  rows e he := by
    obtain ⟨e₀, he₀, rfl⟩ := mem_map.1 he
    refine .inl ⟨e₀, he₀, ?_⟩
    split <;> rfl
  nextTx := rfl
  live x hx := hx

theorem acts_writePlayers {ids : List P}
    (hlock : db.Lockable tx ids) (f : P → PlayerRow Role → PlayerRow Role) :
    Acts tx db (db.writePlayers tx ids f) where
  cells p := by
    unfold writePlayers
    by_cases hp : p ∈ ids
    · cases hcell : db.players p with
      | none =>
        left
        simp [hp, hcell]
      | some c =>
        right
        exact ⟨c, c.write tx (f p (c.view tx)), rfl, hlock p hp c hcell, by simp [hp, hcell],
          fun y hne => Cell.not_heldBy_write hne _⟩
    · left
      simp [hp]
  added y _ p := rfl
  removed y _ p := rfl
  stamped := hstamped
  unused y _ h := h
  rows e he := .inl ⟨e, he, rfl⟩
  nextTx := rfl
  live x hx := hx

end

theorem quiet_writePlayers (ids : List P) (f : P → PlayerRow Role → PlayerRow Role) :
    Quiet db (db.writePlayers tx ids f) where
  values p c' hc' := by
    unfold writePlayers at hc'
    dsimp only at hc'
    split at hc'
    · obtain ⟨c, hc, rfl⟩ := Option.map_eq_some_iff.1 hc'
      exact ⟨c, hc, rfl⟩
    · exact ⟨c', hc', rfl⟩
  settled p := rfl

/-- The end of a transaction frees its cells. -/
theorem cells_end {C : Type} {f : Cell TxId C → Cell TxId C}
    (hf : ∀ c, f c = c ∨ c.Free tx ∧ ∃ v, f c = ⟨v, none⟩) (cell : Option (Cell TxId C)) :
    cell.map f = cell ∨ ∃ c c', cell = some c ∧ c.Free tx ∧ cell.map f = some c' ∧
      ∀ y, y ≠ tx → ¬ c'.HeldBy y := by
  cases cell with
  | none => exact .inl rfl
  | some c =>
    obtain heq | ⟨hfree, v, heq⟩ := hf c
    · exact .inl (congrArg some heq)
    · exact .inr ⟨c, ⟨v, none⟩, rfl, hfree, congrArg some heq, fun _ _ => Cell.not_heldBy_none⟩

theorem acts_commitTx (hstamped : WellStamped db.ledger) : Acts tx db (db.commitTx tx) where
  cells p := cells_end (Cell.commit_eq_or tx) (db.players p)
  added y hne p := (aside_commit hstamped hne).added
  removed y hne p := (aside_commit hstamped hne).removed
  stamped := wellStamped_commit hstamped
  unused y hne h := (aside_commit hstamped hne).unused h
  rows e he := by
    obtain ⟨e₀, he₀, rfl⟩ := mem_map.1 he
    exact .inl ⟨e₀, (mem_filter.1 he₀).1, (settle_row tx e₀).symm⟩
  nextTx := rfl
  live x hx := (mem_filter.1 hx).1

theorem acts_abortTx (hstamped : WellStamped db.ledger) : Acts tx db (db.abortTx tx) where
  cells p := cells_end (Cell.rollback_eq_or tx) (db.players p)
  added y hne p := (aside_rollback hstamped hne).added
  removed y hne p := (aside_rollback hstamped hne).removed
  stamped := wellStamped_rollback hstamped
  unused y hne h := (aside_rollback hstamped hne).unused h
  rows e he := by
    obtain ⟨e₀, he₀, rfl⟩ := mem_map.1 he
    exact .inl ⟨e₀, (mem_filter.1 he₀).1, (restore_row tx e₀).symm⟩
  nextTx := rfl
  live x hx := (mem_filter.1 hx).1

theorem quiet_abortTx : Quiet db (db.abortTx tx) where
  values p c' hc' := by
    obtain ⟨c, hc, rfl⟩ := Option.map_eq_some_iff.1 hc'
    exact ⟨c, hc, by rw [Cell.rollback_value]⟩
  settled p := settled_rollback

theorem sound_commitTx {t : Tally P} (hsound : Sound base db) (htx : t.tx < db.nextTx)
    (hmatches : Matches db t) (hbalanced : t.Balanced) : Sound base (db.commitTx t.tx) := by
  apply (acts_commitTx hsound.stamped).sound hsound htx
  intro p c' hc'
  obtain ⟨c, hc, rfl⟩ := Option.map_eq_some_iff.1 hc'
  have hvalue := hsound.books p c hc
  have hdrift := hmatches.drift p
  have hpending : db.pending t.tx p = (c.view t.tx).bonusBalance - c.value.bonusBalance := by
    rw [pending, hc]
  have hsettled : settled (weight p) (db.commitTx t.tx).ledger =
      settled (weight p) db.ledger + added t.tx (weight p) db.ledger -
        removed t.tx (weight p) db.ledger :=
    settled_commit hsound.stamped
  rw [hbalanced p, hpending] at hdrift
  rw [Cell.commit_value, hsettled]
  omega

theorem sound_abortTx (hsound : Sound base db) (htx : tx < db.nextTx) :
    Sound base (db.abortTx tx) :=
  (acts_abortTx hsound.stamped).sound hsound htx (quiet_abortTx.books hsound)

end Acts

/-! ## The tally follows its own statements -/

section Own

variable {db : Db P Role} {t : Tally P} {ids : List P} {f : P → PlayerRow Role → PlayerRow Role}
  {tx : TxId} {c : Cell TxId (PlayerRow Role)} {p : P}

theorem matches_insert (rows : List (BonusTransaction P))
    (hknown : ∀ row ∈ rows, (db.players row.playerId).isSome) (hmatches : Matches db t) :
    Matches { db with ledger := insert t.tx rows db.ledger } (t.inserted rows) where
  drift p := by
    have hold := hmatches.drift p
    show added t.tx (weight p) (insert t.tx rows db.ledger) -
      removed t.tx (weight p) (insert t.tx rows db.ledger) - db.pending t.tx p =
        t.drift p + amountFor p (rows.map (·.entry))
    rw [added_insert_self, removed_insert, sum_weight]
    omega
  seen := hmatches.seen
  known p hp := by
    obtain hp | ⟨row, hrow, rfl⟩ := hp
    · exact hmatches.known p hp
    · exact hknown row hrow

theorem matches_delete {playerIds : List P} {day : String} (hmatches : Matches db t)
    (hrows : ∀ e ∈ db.ledger, (db.players e.row.playerId).isSome) :
    Matches { db with ledger := delete t.tx (IsAccrual playerIds day) db.ledger }
      (t.removed ((picked t.tx (IsAccrual playerIds day) db.ledger).map (·.entry))) where
  drift p := by
    have hold := hmatches.drift p
    show added t.tx (weight p) (delete t.tx (IsAccrual playerIds day) db.ledger) -
      removed t.tx (weight p) (delete t.tx (IsAccrual playerIds day) db.ledger) -
        db.pending t.tx p = t.drift p -
          amountFor p ((picked t.tx (IsAccrual playerIds day) db.ledger).map (·.entry))
    rw [added_delete, removed_delete_self, sum_weight]
    omega
  seen := hmatches.seen
  known p hp := by
    obtain hp | ⟨r, hr, rfl⟩ := hp
    · exact hmatches.known p hp
    · obtain ⟨row, hrow, rfl⟩ := mem_map.1 hr
      obtain ⟨e, he, rfl⟩ := mem_map.1 hrow
      exact hrows e (mem_filter.1 he).1

theorem writePlayers_of_mem (hp : p ∈ ids) (hc : db.players p = some c) :
    (db.writePlayers tx ids f).players p = some (c.write tx (f p (c.view tx))) := by
  simp [writePlayers, hp, hc]

theorem writePlayers_of_not_mem (hp : p ∉ ids) :
    (db.writePlayers tx ids f).players p = db.players p := by
  simp [writePlayers, hp]

variable (f : P → PlayerRow Role → PlayerRow Role)

/-- A write moves what is pending by what it does to the balance in view. -/
theorem pending_writePlayers (hp : p ∈ ids)
    (hc : db.players p = some c) : (db.writePlayers tx ids f).pending tx p = db.pending tx p +
      ((f p (c.view tx)).bonusBalance - (c.view tx).bonusBalance) := by
  unfold pending
  rw [writePlayers_of_mem hp hc, hc]
  dsimp only
  rw [Cell.view_of_heldBy rfl]
  show _ - c.value.bonusBalance = _
  omega

theorem Matches.view (hmatches : Matches db t) {b : Int} (hseen : t.seen p = some b) :
    ∃ c, db.players p = some c ∧ (c.view t.tx).bonusBalance = b := by
  obtain ⟨c, row, hc, hdraft, hbalance⟩ := hmatches.seen p b hseen
  exact ⟨c, hc, by rw [Cell.view_of_heldBy hdraft, hbalance]⟩

/-- A write to some players and a tally that takes note of it. -/
theorem matches_writePlayers {t' : Tally P} (hmatches : Matches db t) (htx : t'.tx = t.tx)
    (hwritten : ∀ p ∈ ids, ∀ c, db.players p = some c →
      t'.drift p = t.drift p - ((f p (c.view t.tx)).bonusBalance - (c.view t.tx).bonusBalance) ∧
        ∀ b, t'.seen p = some b → (f p (c.view t.tx)).bonusBalance = b)
    (habsent : ∀ p ∈ ids, db.players p = none → t'.drift p = t.drift p ∧ t'.seen p = none)
    (hkept : ∀ p, p ∉ ids → t'.drift p = t.drift p ∧ t'.seen p = t.seen p)
    (hknown : ∀ p, t'.known p → t.known p ∨ (db.players p).isSome) :
    Matches (db.writePlayers t.tx ids f) t' where
  drift p := by
    have hold := hmatches.drift p
    rw [htx]
    show added t.tx (weight p) db.ledger - removed t.tx (weight p) db.ledger - _ = _
    by_cases hp : p ∈ ids
    · cases hc : db.players p with
      | none =>
        have hpending : (db.writePlayers t.tx ids f).pending t.tx p = db.pending t.tx p := by
          simp [pending, writePlayers, hp, hc]
        rw [hpending, (habsent p hp hc).1]
        exact hold
      | some c =>
        rw [pending_writePlayers f hp hc, (hwritten p hp c hc).1]
        omega
    · have hpending : (db.writePlayers t.tx ids f).pending t.tx p = db.pending t.tx p := by
        simp [pending, writePlayers, hp]
      rw [hpending, (hkept p hp).1]
      exact hold
  seen p b hseen := by
    rw [htx]
    by_cases hp : p ∈ ids
    · cases hc : db.players p with
      | none =>
        rw [(habsent p hp hc).2] at hseen
        cases hseen
      | some c => exact ⟨_, _, writePlayers_of_mem hp hc, rfl, (hwritten p hp c hc).2 b hseen⟩
    · rw [(hkept p hp).2] at hseen
      rw [writePlayers_of_not_mem hp]
      exact hmatches.seen p b hseen
  known p hp := by
    have hsome : (db.players p).isSome := (hknown p hp).elim (hmatches.known p) id
    by_cases hids : p ∈ ids
    · obtain ⟨c, hc⟩ := Option.isSome_iff_exists.1 hsome
      rw [writePlayers_of_mem hids hc]
      rfl
    · rw [writePlayers_of_not_mem hids]
      exact hsome

theorem getEntry_rowsForUpdate (p : P) : JsMap.getEntry p (db.rowsForUpdate tx ids) =
      if p ∈ ids then (db.players p).map (·.view tx) else none := by
  induction ids with
  | nil => rfl
  | cons id ids ih =>
    unfold rowsForUpdate at ih ⊢
    rw [filterMap_cons]
    cases hc : db.players id with
    | none =>
      dsimp only [Option.map_none]
      rw [ih]
      by_cases hp : p = id
      · subst hp
        simp [hc]
      · simp [hp]
    | some c =>
      dsimp only [Option.map_some]
      rw [JsMap.getEntry, ih]
      by_cases hp : id = p
      · subst hp
        simp [hc]
      · have hne : p ≠ id := fun h => hp h.symm
        simp [hp, hne]

theorem matches_selectForUpdate (hmatches : Matches db t) :
    Matches (db.writePlayers t.tx ids fun _ row => row)
      (t.locked (db.rowsForUpdate t.tx ids)) := by
  refine matches_writePlayers _ hmatches rfl ?_ ?_ ?_ ?_
  · intro p hp c hc
    refine ⟨by simp [Tally.locked], fun b hseen => ?_⟩
    simp only [Tally.locked, getEntry_rowsForUpdate, if_pos hp, hc, Option.map_some] at hseen
    exact Option.some.inj hseen
  · intro p hp hnone
    refine ⟨rfl, ?_⟩
    simp only [Tally.locked, getEntry_rowsForUpdate, if_pos hp, hnone, Option.map_none]
    cases hseen : t.seen p with
    | none => rfl
    | some b =>
      obtain ⟨c, hc, _⟩ := hmatches.view hseen
      rw [hnone] at hc
      cases hc
  · intro p hp
    exact ⟨rfl, by simp only [Tally.locked, getEntry_rowsForUpdate, if_neg hp]⟩
  · rintro p (hp | ⟨r, hr, rfl⟩)
    · exact .inl hp
    · exact .inr (mem_rowsForUpdate hr).2

theorem matches_addToBalances {changes : List (P × Int)} (hmatches : Matches db t)
    (hknown : ∀ r ∈ changes, t.known r.1) :
    Matches (db.writePlayers t.tx (changes.map Prod.fst) (addBalance changes))
      (t.changed changes) := by
  refine matches_writePlayers _ hmatches rfl ?_ ?_ ?_ ?_
  · intro p hp c hc
    refine ⟨by simp [Tally.changed, addBalance], fun b hseen => ?_⟩
    obtain ⟨b₀, hb₀, rfl⟩ := Option.map_eq_some_iff.1 hseen
    obtain ⟨c₀, hc₀, hview⟩ := hmatches.view hb₀
    rw [hc] at hc₀
    cases hc₀
    rw [← hview]
    rfl
  · intro p hp hnone
    obtain ⟨r, hr, rfl⟩ := mem_map.1 hp
    have hsome := hmatches.known r.1 (hknown r hr)
    rw [hnone] at hsome
    cases hsome
  · intro p hp
    simp [Tally.changed, JsMap.getEntry_eq_none hp]
  · intro p hp
    exact .inl hp

theorem matches_updatePlayer {id : P} {b : Int} (role : Option (Role × Int))
    (hmatches : Matches db t) (hseen : (t.seen id).isSome) :
    Matches (db.writePlayers t.tx [id] fun _ => setColumns b role) (t.set id b) := by
  obtain ⟨b₀, hb₀⟩ := Option.isSome_iff_exists.1 hseen
  have hset (row : PlayerRow Role) : (setColumns b role row).bonusBalance = b := by
    unfold setColumns
    split <;> rfl
  refine matches_writePlayers _ hmatches rfl ?_ ?_ ?_ ?_
  · intro p hp c hc
    obtain rfl : p = id := by simpa using hp
    obtain ⟨c₀, hc₀, hview⟩ := hmatches.view hb₀
    rw [hc] at hc₀
    cases hc₀
    rw [hset, hview]
    refine ⟨by simp [Tally.set, hb₀], fun b' hb' => ?_⟩
    simpa [Tally.set] using hb'
  · intro p hp hnone
    obtain rfl : p = id := by simpa using hp
    obtain ⟨c₀, hc₀, _⟩ := hmatches.view hb₀
    rw [hnone] at hc₀
    cases hc₀
  · intro p hp
    have hne : p ≠ id := by simpa using hp
    simp [Tally.set, hne]
  · intro p hp
    exact .inl hp

end Own

/-! ## One statement -/

section Succeed

variable {db db' : Db P Role} {tx : TxId}

theorem updatePlayers_eq_some {ids : List P} {f : P → PlayerRow Role → PlayerRow Role}
    (hupdate : db.updatePlayers tx ids f = some db') :
    db.Lockable tx ids ∧ db' = db.writePlayers tx ids f := by
  unfold updatePlayers at hupdate
  split at hupdate
  · next hcan => exact ⟨hcan.1, (Option.some.inj hupdate).symm⟩
  · cases hupdate

variable [DecidableEq Role] {e : Sql P Role} {a : Answer P Role K e}

/-- A statement acts for its transaction, and nothing is committed before the end. -/
theorem acts_succeed (hstamped : WellStamped db.ledger) (htx : txOf e = some tx)
    (hsucceed : db.succeed e a = some db') : Acts tx db db' ∧ (e ≠ .commit tx → Quiet db db') := by
  cases e <;> cases htx <;> simp only [succeed, Option.ite_none_right_eq_some,
    Option.some.injEq] at hsucceed
  case advisoryXactLock =>
    obtain ⟨_, rfl⟩ := hsucceed
    exact ⟨acts_of_same hstamped rfl rfl rfl rfl, fun _ => quiet_of_same rfl rfl⟩
  case deleteAccruals =>
    obtain ⟨_, rfl⟩ := hsucceed
    exact ⟨acts_delete hstamped _, fun _ => ⟨fun p c' hc' => ⟨c', hc', rfl⟩, fun p =>
      settled_delete _⟩⟩
  case insertTransactions =>
    obtain ⟨hrows, rfl⟩ := hsucceed
    exact ⟨acts_insert hstamped _ fun row hrow => (hrows row hrow).2, fun _ =>
      ⟨fun p c' hc' => ⟨c', hc', rfl⟩, fun p => settled_insert _⟩⟩
  case selectForUpdate =>
    obtain ⟨⟨hlock, _⟩, rfl⟩ := hsucceed
    exact ⟨acts_writePlayers hstamped hlock _, fun _ => quiet_writePlayers _ _⟩
  case addToBalances | updatePlayer =>
    obtain ⟨hlock, rfl⟩ := updatePlayers_eq_some hsucceed
    exact ⟨acts_writePlayers hstamped hlock _, fun _ => quiet_writePlayers _ _⟩
  case commit =>
    subst hsucceed
    exact ⟨acts_commitTx hstamped, fun hnot => absurd rfl hnot⟩
  case rollback =>
    subst hsucceed
    exact ⟨acts_abortTx hstamped, fun _ => quiet_abortTx⟩
  case selectSettings | updateSeedSeconds | selectPresence | other =>
    subst hsucceed
    exact ⟨acts_of_same hstamped rfl rfl rfl rfl, fun _ => quiet_of_same rfl rfl⟩

/-- An allowed statement other than the end of the transaction keeps the tally in step. -/
theorem matches_succeed {t : Tally P}
    (hrows : ∀ e ∈ db.ledger, (db.players e.row.playerId).isSome) (hmatches : Matches db t)
    (hallows : t.Allows e) (hopen : ∀ tx, e ≠ .commit tx ∧ e ≠ .rollback tx)
    (hsucceed : db.succeed e a = some db') :
    ∃ t', t.after e a = .running t' ∧ t'.tx = t.tx ∧ Matches db' t' := by
  cases e <;> simp only [succeed, Option.ite_none_right_eq_some, Option.some.injEq] at hsucceed
  case begin => exact hallows.elim
  case advisoryXactLock =>
    obtain ⟨_, rfl⟩ := hsucceed
    exact ⟨t, rfl, rfl, { hmatches with }⟩
  case deleteAccruals playerIds day =>
    obtain ⟨⟨_, rfl⟩, rfl⟩ := hsucceed
    cases (hallows : _ = t.tx)
    refine ⟨_, if_pos ?_, rfl, matches_delete hmatches hrows⟩
    intro r hr
    obtain ⟨row, hrow, rfl⟩ := mem_map.1 hr
    obtain ⟨e, he, rfl⟩ := mem_map.1 hrow
    have hpicks : Picks t.tx (IsAccrual playerIds day) e := by simpa using (mem_filter.1 he).2
    exact hpicks.2.2.1
  case insertTransactions rows =>
    obtain ⟨hknown, rfl⟩ := hsucceed
    cases (hallows : _ = t.tx)
    exact ⟨_, rfl, rfl, matches_insert rows (fun row hrow => (hknown row hrow).2) hmatches⟩
  case selectForUpdate ids =>
    obtain ⟨⟨_, rfl⟩, rfl⟩ := hsucceed
    cases (hallows : _ = t.tx)
    exact ⟨_, if_pos fun r hr => (mem_rowsForUpdate hr).1, rfl, matches_selectForUpdate hmatches⟩
  case addToBalances changes =>
    obtain ⟨_, rfl⟩ := updatePlayers_eq_some hsucceed
    obtain ⟨rfl, hknown⟩ := hallows
    exact ⟨_, rfl, rfl, matches_addToBalances hmatches hknown⟩
  case updatePlayer id b role =>
    obtain ⟨_, rfl⟩ := updatePlayers_eq_some hsucceed
    obtain ⟨rfl, hseen⟩ := hallows
    exact ⟨_, rfl, rfl, matches_updatePlayer role hmatches hseen⟩
  case commit => exact absurd rfl (hopen _).1
  case rollback => exact absurd rfl (hopen _).2
  case selectSettings | updateSeedSeconds | selectPresence | other =>
    subst hsucceed
    exact ⟨t, rfl, rfl, hmatches⟩

end Succeed

end Db

end SquadPanel.Economy
