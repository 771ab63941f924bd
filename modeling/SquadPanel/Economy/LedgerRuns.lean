import SquadPanel.Economy.LedgerBalance

/-!
# The balance is the ledger

In every interleaving of accruals, VIP grants and manual adjustments, the committed
balance of a player is their starting balance plus what the committed ledger rows have
gained since.
-/

namespace SquadPanel.Economy

open Js Lib Versioned Option
open Config (setProc_procs_eq_some)

variable {P Role K : Type} [DecidableEq P]

namespace Db

/-! ## Balances -/

/-- What the committed row of a player says; a player without a row has nothing. -/
def balance (db : Db P Role) (p : P) : Int :=
  match db.players p with
  | some c => c.value.bonusBalance
  | none => 0

/-- What the committed ledger rows of a player add up to. -/
def ledgerSum (db : Db P Role) (p : P) : Int :=
  settled (weight p) db.ledger

variable {db : Db P Role}

theorem ledgerSum_of_none {p : P}
    (hknown : ∀ e ∈ db.ledger, (db.players e.row.playerId).isSome) (hp : db.players p = none) :
    db.ledgerSum p = 0 := by
  apply settled_eq_zero
  intro e he
  unfold weight
  rw [if_neg]
  intro heq
  have hsome := hknown e he
  rw [heq, hp] at hsome
  cases hsome

/-! ## One move of a process -/

/-- The database agrees with the books of a process.  Nothing is known of a transaction the
server has rolled back behind its back. -/
def Fits (db : Db P Role) : Books P → Prop
  | .idle => True
  | .running t => t.tx < db.nextTx ∧ (t.tx ∈ db.live → Matches db t)
  | .wild => False

/-- What a move from books `g` to books `g'` leaves behind. -/
structure Advances (base : P → Int) (db db' : Db P Role) (g g' : Books P) : Prop where
  sound : Sound base db'
  fits : Fits db' g'
  others : ∀ y, (∀ t, g = .running t → t.tx ≠ y) → y < db.nextTx → y ∈ db'.live →
    y ∈ db.live ∧ Unmoved y db db'
  nextTx : db.nextTx ≤ db'.nextTx
  owner : ∀ t', g' = .running t' → t'.tx = db.nextTx ∨ ∃ t, g = .running t ∧ t.tx = t'.tx

section Advances

variable {base : P → Int} {db db' : Db P Role} {g g' : Books P} {t : Tally P} {e : Sql P Role}

theorem Advances.fits_other (hadvances : Advances base db db' g g') {h : Books P}
    (hfits : Fits db h) (hne : ∀ t u, g = .running t → h = .running u → t.tx ≠ u.tx) :
    Fits db' h := by
  cases h with
  | idle => trivial
  | wild => exact hfits
  | running u =>
    obtain ⟨hlt, hmatches⟩ := hfits
    refine ⟨lt_of_lt_of_le hlt hadvances.nextTx, fun hlive => ?_⟩
    obtain ⟨hold, hunmoved⟩ :=
      hadvances.others u.tx (fun t hg => hne t u hg rfl) hlt hlive
    exact hunmoved.matches (hmatches hold)

theorem unmoved_of_same {y : TxId} (hplayers : db'.players = db.players)
    (hledger : db'.ledger = db.ledger) : Unmoved y db db' where
  cells p := .inl (by rw [hplayers])
  added p := by rw [hledger]
  removed p := by rw [hledger]

theorem advances_begin (hsound : Sound base db) :
    Advances base db { db with live := db.nextTx :: db.live, nextTx := db.nextTx + 1 } .idle
      (.running (Tally.start db.nextTx)) where
  sound :=
    { hsound with
      unused := fun x hx => hsound.unused x (Nat.le_of_succ_le hx)
      unlocked := fun x hx => hsound.unlocked x (Nat.le_of_succ_le hx)
      live := by
        intro x hx
        obtain rfl | hx := List.mem_cons.1 hx
        · exact Nat.lt_succ_self _
        · exact Nat.lt_succ_of_lt (hsound.live x hx) }
  fits := by
    refine ⟨Nat.lt_succ_self _, fun _ => ⟨fun p => ?_, fun p b hseen => ?_, fun p hp => hp.elim⟩⟩
    · have hunused := hsound.unused db.nextTx (le_refl _)
      have hpending : db.pending db.nextTx p = 0 :=
        pending_of_not_heldBy (hsound.unlocked db.nextTx (le_refl _) p)
      show added db.nextTx (weight p) db.ledger - removed db.nextTx (weight p) db.ledger -
        db.pending db.nextTx p = 0
      rw [added_of_unused hunused, removed_of_unused hunused, hpending]
      rfl
    · cases hseen
  others y _ hlt hlive := by
    obtain rfl | hlive := List.mem_cons.1 hlive
    · exact absurd hlt (lt_irrefl _)
    · exact ⟨hlive, unmoved_of_same rfl rfl⟩
  nextTx := Nat.le_succ _
  owner t' ht' := by
    cases ht'
    exact .inl rfl

/-- A statement of a running transaction. -/
theorem advances_acts (hacts : Acts t.tx db db') (hsound : Sound base db')
    (hfits : Fits db' g') (howner : ∀ t', g' = .running t' → t.tx = t'.tx) :
    Advances base db db' (.running t) g' where
  sound := hsound
  fits := hfits
  others y hne _ hlive := ⟨hacts.live y hlive, hacts.unmoved (hne t rfl).symm⟩
  nextTx := hacts.nextTx.ge
  owner t' ht' := .inr ⟨t, rfl, howner t' ht'⟩

theorem advances_end (hacts : Acts t.tx db db') (hsound : Sound base db') :
    Advances base db db' (.running t) .idle := by
  apply advances_acts hacts hsound
  · trivial
  · intro t' ht'
    cases ht'

section
variable (hsound : Sound base db)
include hsound

theorem Advances.refl (hfits : Fits db g) : Advances base db db g g where
  sound := hsound
  fits := hfits
  others _ _ _ hlive := ⟨hlive, unmoved_of_same rfl rfl⟩
  nextTx := le_refl _
  owner t' ht' := .inr ⟨t', ht', rfl⟩

theorem advances_abortTx (htx : t.tx < db.nextTx) :
    Advances base db (db.abortTx t.tx) (.running t) .idle :=
  advances_end (acts_abortTx hsound.stamped) (sound_abortTx hsound htx)

/-- The environment moves a row nobody holds. -/
theorem advances_setCell {id : P} {row : PlayerRow Role}
    (hfree : ∀ c, db.players id = some c → ∀ y, ¬ c.HeldBy y)
    (hbooks : row.bonusBalance = base id + settled (weight id) db.ledger) : Advances base db
      { db with players := fun p => if p = id then some ⟨row, none⟩ else db.players p }
      .idle .idle where
  sound :=
    { hsound with
      books := by
        intro p c hc
        dsimp only at hc
        split at hc
        · next heq =>
          cases hc
          rw [heq]
          exact hbooks
        · exact hsound.books p c hc
      newcomers := by
        intro p hp
        dsimp only at hp
        split at hp
        · cases hp
        · exact hsound.newcomers p hp
      known := by
        intro e he
        dsimp only
        split
        · rfl
        · exact hsound.known e he
      unlocked := by
        intro x hx p c hc
        dsimp only at hc
        split at hc
        · cases hc
          exact Cell.not_heldBy_none
        · exact hsound.unlocked x hx p c hc }
  fits := trivial
  others y _ _ hlive := by
    refine ⟨hlive, fun p => ?_, fun p => rfl, fun p => rfl⟩
    dsimp only
    split
    · next heq =>
      rw [heq]
      exact .inr ⟨fun c hc => hfree c hc y, _, rfl, Cell.not_heldBy_none⟩
    · exact .inl rfl
  nextTx := le_refl _
  owner := nofun

theorem advances_environment {move : EconomyMove P Role}
    (hmove : db.environment move = some db') : Advances base db db' .idle .idle := by
  cases move with
  | abort tx =>
    obtain ⟨hlive, rfl⟩ := of_guarded hmove
    have hacts : Acts tx db (db.abortTx tx) := acts_abortTx hsound.stamped
    refine ⟨sound_abortTx hsound (hsound.live tx hlive), trivial, fun y _ _ hy => ?_,
      hacts.nextTx.ge, nofun⟩
    have hne : y ≠ tx := by simpa using (List.mem_filter.1 hy).2
    exact ⟨hacts.live y hy, hacts.unmoved hne⟩
  | createPlayer id =>
    simp only [environment] at hmove
    split at hmove
    · next hnone =>
      cases hmove
      apply advances_setCell hsound
      · intro c hc
        rw [hnone] at hc
        cases hc
      · have hzero : settled (weight id) db.ledger = 0 := ledgerSum_of_none hsound.known hnone
        rw [hzero, hsound.newcomers id hnone]
        rfl
    · cases hmove
  | setRole id roleId roleExpiresAt =>
    simp only [environment] at hmove
    split at hmove
    · next row hcell =>
      cases hmove
      apply advances_setCell hsound
      · intro c hc
        rw [hcell] at hc
        cases hc
        exact fun y => Cell.not_heldBy_none
      · exact hsound.books id _ hcell
    · cases hmove

theorem advances_fail (hfits : Fits db (.running t)) (hallows : t.Allows e) :
    Advances base db (db.fail e) (.running t) (t.failed e) := by
  cases e
  case commit tx =>
    obtain ⟨rfl, _⟩ := hallows
    exact advances_abortTx hsound hfits.1
  all_goals exact Advances.refl hsound hfits

end

variable [DecidableEq Role] {a : Answer P Role K e}

theorem advances_succeed (hsound : Sound base db) (hfits : Fits db (.running t))
    (hallows : t.Allows e) (hlive : t.tx ∈ db.live) (hsucceed : db.succeed e a = some db') :
    Advances base db db' (.running t) (t.after e a) := by
  have htx := txOf_of_allows hallows
  obtain ⟨hacts, hquiet⟩ := acts_succeed hsound.stamped htx hsucceed
  have hmatches := hfits.2 hlive
  by_cases hopen : ∀ tx, e ≠ .commit tx ∧ e ≠ .rollback tx
  · obtain ⟨t', hafter, hsame, hmatches'⟩ :=
      matches_succeed hsound.known hmatches hallows hopen hsucceed
    rw [hafter]
    apply advances_acts hacts (hacts.sound hsound hfits.1 ((hquiet (hopen _).1).books hsound))
    · refine ⟨?_, fun _ => hmatches'⟩
      rw [hsame, hacts.nextTx]
      exact hfits.1
    · rintro _ ⟨⟩
      exact hsame.symm
  · -- the transaction ends
    cases e
    case commit tx =>
      obtain ⟨rfl, hbalanced⟩ := hallows
      cases hsucceed
      exact advances_end hacts (sound_commitTx hsound hfits.1 hmatches hbalanced)
    case rollback tx =>
      cases (hallows : tx = t.tx)
      cases hsucceed
      exact advances_abortTx hsound hfits.1
    all_goals exact absurd (fun tx => ⟨nofun, nofun⟩) hopen

theorem perform_eq_some (hperform : perform e db (some a) = some db') :
    (∀ tx ∈ txOf e, tx ∈ db.live) ∧ db.succeed e a = some db' := by
  have hif : (if ∀ tx ∈ txOf e, tx ∈ db.live then db.succeed e a else none) = some db' := hperform
  exact ite_none_right_eq_some.1 hif

theorem advances_perform {r : Reply P Role K e} (hsound : Sound base db)
    (hfits : Fits db g) (hpre : (@ledgerProtocol P Role K _).pre e g)
    (hperform : perform e db r = some db') :
    Advances base db db' g (ledgerProtocol.next e r g) := by
  cases g with
  | wild => exact hfits.elim
  | idle =>
    cases (hpre : e = .begin)
    cases r with
    | none =>
      cases hperform
      exact Advances.refl hsound trivial
    | some tx =>
      obtain ⟨_, hsucceed⟩ := perform_eq_some hperform
      obtain ⟨rfl, rfl⟩ := of_guarded hsucceed
      exact advances_begin hsound
  | running t =>
    cases r with
    | none =>
      cases hperform
      exact advances_fail hsound hfits hpre
    | some a =>
      obtain ⟨hlive, hsucceed⟩ := perform_eq_some hperform
      exact advances_succeed hsound hfits hpre (hlive _ (txOf_of_allows hpre)) hsucceed

end Advances

/-! ## Runs -/

/-- No transaction is open, and the rows of the ledger belong to players. -/
structure AtRest (db : Db P Role) : Prop where
  cells : ∀ p c, db.players p = some c → c.draft = none
  rows : ∀ e ∈ db.ledger, e.insertedBy = none ∧ e.deletedBy = none
  live : db.live = []
  known : ∀ e ∈ db.ledger, (db.players e.row.playerId).isSome

theorem Sound.balance_eq {base : P → Int} (hsound : Sound base db) (p : P) :
    db.balance p = base p + db.ledgerSum p := by
  unfold balance
  split
  · next c hc => exact hsound.books p c hc
  · next hp =>
    rw [hsound.newcomers p hp, ledgerSum_of_none hsound.known hp]
    rfl

theorem AtRest.sound (hrest : AtRest db) : Sound (fun p => db.balance p - db.ledgerSum p) db where
  books p c hc := by
    show c.value.bonusBalance = db.balance p - db.ledgerSum p + db.ledgerSum p
    rw [Int.sub_add_cancel, balance, hc]
  newcomers p hp := by
    rw [ledgerSum_of_none hrest.known hp, balance, hp]
    rfl
  stamped e he x hx := by
    rw [(hrest.rows e he).2] at hx
    cases hx
  known := hrest.known
  unused x _ e he := by
    rw [(hrest.rows e he).1, (hrest.rows e he).2]
    exact ⟨nofun, nofun⟩
  unlocked x _ p c hc := by
    rintro ⟨v, hdraft⟩
    rw [hrest.cells p c hc] at hdraft
    cases hdraft
  live x hx := by
    rw [hrest.live] at hx
    cases hx

end Db

section Runs

variable {ι : Type} {base : P → Int}
  {c : Config ι (Sql P Role) (Reply P Role K) (Job P Role) (Db P Role)} {s : Db P Role}

/-- The books of a process, from the statements it has made. -/
def booksOf (proc : Proc (Sql P Role) (Reply P Role K) (Job P Role)) : Books P :=
  ledgerProtocol.ghost (fun _ => .idle) proc.arg proc.hist

/-- The invariant of a run. -/
structure LedgerInv (base : P → Int)
    (c : Config ι (Sql P Role) (Reply P Role K) (Job P Role) (Db P Role)) : Prop where
  sound : Db.Sound base c.shared
  fits : ∀ pid proc, c.procs pid = some proc → Db.Fits c.shared (booksOf proc)
  apart : ∀ pid pid' proc proc' t t', pid ≠ pid' → c.procs pid = some proc →
    c.procs pid' = some proc' → booksOf proc = .running t → booksOf proc' = .running t' →
      t.tx ≠ t'.tx

/-- The transaction a process has after its move is not another process's. -/
theorem LedgerInv.owner_ne (hinv : LedgerInv base c) {pid q : ι}
    {proc proc' : Proc (Sql P Role) (Reply P Role K) (Job P Role)} {g' : Books P}
    {t t' : Tally P} (hproc : c.procs pid = some proc)
    (hadvances : Db.Advances base c.shared s (booksOf proc) g') (hne : pid ≠ q)
    (hproc' : c.procs q = some proc') (ht : g' = .running t)
    (ht' : booksOf proc' = .running t') : t.tx ≠ t'.tx := by
  obtain hfresh | ⟨t₀, ht₀, heq⟩ := hadvances.owner t ht
  · have hfits := hinv.fits q proc' hproc'
    rw [ht'] at hfits
    rw [hfresh]
    exact hfits.1.ne'
  · rw [← heq]
    exact hinv.apart pid q proc proc' t₀ t' hne hproc hproc' ht₀ ht'

theorem LedgerInv.environment (hinv : LedgerInv base c)
    (hadvances : Db.Advances base c.shared s .idle .idle) :
    LedgerInv base { c with shared := s } where
  sound := hadvances.sound
  fits pid proc hproc := hadvances.fits_other (hinv.fits pid proc hproc) nofun
  apart := hinv.apart

variable [DecidableEq ι]

/-- A process without a transaction comes or any process goes. -/
theorem LedgerInv.setProc (hinv : LedgerInv base c) (pid : ι)
    {p : Option (Proc (Sql P Role) (Reply P Role K) (Job P Role))}
    (hidle : ∀ proc, p = some proc → booksOf proc = .idle) : LedgerInv base (c.setProc pid p) where
  sound := hinv.sound
  fits := Config.forall_setProc (fun proc hnew => hidle proc hnew ▸ trivial) hinv.fits
  apart q q' proc proc' t t' hne hproc hproc' ht ht' := by
    obtain ⟨_, hnew⟩ | ⟨_, hold⟩ := setProc_procs_eq_some hproc
    · rw [hidle proc hnew] at ht
      cases ht
    obtain ⟨_, hnew'⟩ | ⟨_, hold'⟩ := setProc_procs_eq_some hproc'
    · rw [hidle proc' hnew'] at ht'
      cases ht'
    exact hinv.apart q q' proc proc' t t' hne hold hold' ht ht'

theorem LedgerInv.answered (hinv : LedgerInv base c) {pid : ι} {arg : Job P Role}
    {hist : List (Event (Sql P Role) (Reply P Role K))} {ev : Event (Sql P Role) (Reply P Role K)}
    {prog rest : Prog (Sql P Role) (Reply P Role K) Unit}
    (hproc : c.procs pid = some ⟨arg, hist, prog⟩)
    (hadvances : Db.Advances base c.shared s (booksOf ⟨arg, hist, prog⟩)
      (booksOf ⟨arg, hist ++ [ev], rest⟩)) :
    LedgerInv base (System.answered c pid arg hist ev rest s) where
  sound := hadvances.sound
  fits q proc hq := by
    obtain ⟨rfl, hnew⟩ | ⟨hne, hold⟩ := setProc_procs_eq_some hq
    · cases hnew
      exact hadvances.fits
    · apply hadvances.fits_other (hinv.fits q proc hold)
      intro t u ht hu
      exact hinv.apart pid q _ proc t u hne.symm hproc hold ht hu
  apart q q' proc proc' t t' hne hq hq' ht ht' := by
    obtain ⟨rfl, hnew⟩ | ⟨hq, hold⟩ := setProc_procs_eq_some hq
    · cases hnew
      obtain ⟨rfl, _⟩ | ⟨_, hold'⟩ := setProc_procs_eq_some hq'
      · exact absurd rfl hne
      · exact hinv.owner_ne hproc hadvances hne hold' ht ht'
    · obtain ⟨rfl, hnew'⟩ | ⟨_, hold'⟩ := setProc_procs_eq_some hq'
      · cases hnew'
        exact (hinv.owner_ne hproc hadvances hne.symm hold ht' ht).symm
      · exact hinv.apart q q' proc proc' t t' hne hold hold' ht ht'

variable [DecidableEq Role] {arith : Arithmetic K}

theorem wp_body (arith : Arithmetic K) (job : Job P Role) :
    ((economySystem arith).body job).Wp ledgerProtocol (fun _ _ => True) .idle := by
  cases job with
  | accrue day => exact wp_accrueDailyBonuses arith day
  | vipGrant input => exact wp_vipGrantTransaction input
  | adjust playerId amount => exact wp_bonusAdjustment playerId amount

theorem ledgerInv_step {c' : Config ι (Sql P Role) (Reply P Role K) (Job P Role) (Db P Role)}
    {l : Label ι (Sql P Role) (Reply P Role K) (Job P Role) (EconomyMove P Role)}
    (hfollows : System.Follows ledgerProtocol (fun _ => True) (fun _ => .idle) c)
    (hinv : LedgerInv base c) (hstep : (economySystem arith).step c l = some c') :
    LedgerInv base c' := by
  obtain ⟨pid, arg, _, _, rfl⟩ | ⟨pid, arg, hist, e, k, r, s, _, hproc, hperform, rfl⟩ |
    ⟨pid, _, rfl⟩ | ⟨move, s, _, henv, rfl⟩ := System.step_cases hstep
  · apply hinv.setProc pid
    rintro _ ⟨⟩
    rfl
  · have hpre := (hfollows.procs pid _ hproc).1
    have hadvances := Db.advances_perform hinv.sound (hinv.fits pid _ hproc) hpre hperform
    apply hinv.answered hproc
    show Db.Advances base c.shared s _ (ledgerProtocol.ghost _ arg (hist ++ [⟨e, r⟩]))
    rw [Protocol.ghost_append_singleton]
    exact hadvances
  · exact hinv.setProc pid nofun
  · exact hinv.environment (Db.advances_environment hinv.sound henv)

theorem ledgerInv_of_reaches {db₀ : Db P Role} (hrest : db₀.AtRest)
    (hreach : (economySystem arith).Reaches System.anyMove (Config.start db₀) c) :
    LedgerInv (fun p => db₀.balance p - db₀.ledgerSum p) c := by
  apply System.invariant_of_reaches (wp_body arith) _ _ hreach
  · exact ⟨hrest.sound, nofun, nofun⟩
  · intro c l c' hfollows _ hinv hstep
    exact ledgerInv_step hfollows hinv hstep

/-- Whatever has run, the balance of a player has moved by what the ledger has gained: the
amounts written less the amounts deleted or replaced. -/
theorem balance_eq_of_reaches (arith : Arithmetic K) {db₀ : Db P Role} (hrest : db₀.AtRest)
    (hreach : (economySystem arith).Reaches System.anyMove (Config.start db₀) c) (p : P) :
    c.shared.balance p = db₀.balance p + (c.shared.ledgerSum p - db₀.ledgerSum p) := by
  have hbalance := (ledgerInv_of_reaches hrest hreach).sound.balance_eq p
  omega

/-- A rerun of a day shrinks the accrual from 40 to 10 while an adjustment of 50 waits for the
row. -/
def sampleDb : Db Nat Nat where
  players := fun p => if p = 1 then some ⟨⟨100, none, none⟩, none⟩ else none
  ledger := [⟨accrualRow "2026-01-01" 1 .earnOnline 40, none, none⟩]
  dayLocks := fun _ => none
  live := []
  nextTx := 0

def sampleArithmetic : Arithmetic Int := ⟨fun k seconds => k * seconds / 3600⟩

def sampleRun : List (Label Nat (Sql Nat Nat) (Reply Nat Nat Int) (Job Nat Nat)
    (EconomyMove Nat Nat)) :=
  [.spawn 0 (.accrue "2026-01-01"), .spawn 1 (.adjust 1 50),
    .perform 0 ⟨.begin, some 0⟩, .perform 1 ⟨.begin, some 1⟩,
    .perform 0 ⟨.advisoryXactLock 0 "2026-01-01", some ()⟩,
    .perform 0 ⟨.selectSettings 0, some (some ⟨10, 0, 0, true⟩)⟩,
    .perform 0 ⟨.updateSeedSeconds 0 "2026-01-01", some ()⟩,
    .perform 0 ⟨.selectPresence 0 "2026-01-01", some [⟨1, 3600, 0, 0⟩]⟩,
    .perform 0 ⟨.deleteAccruals 0 [1] "2026-01-01", some [(1, 40)]⟩,
    .perform 0 ⟨.insertTransactions 0 [accrualRow "2026-01-01" 1 .earnOnline 10], some ()⟩,
    .perform 0 ⟨.selectForUpdate 0 [1], some [(1, ⟨100, none, none⟩)]⟩,
    .perform 0 ⟨.addToBalances 0 [(1, -30)], some ()⟩,
    .perform 0 ⟨.commit 0, some ()⟩,
    .perform 1 ⟨.selectForUpdate 1 [1], some [(1, ⟨70, none, none⟩)]⟩,
    .perform 1 ⟨.insertTransactions 1 [adjustRow 1 50], some ()⟩,
    .perform 1 ⟨.updatePlayer 1 1 120 none, some ()⟩,
    .perform 1 ⟨.other 1, some ()⟩, .perform 1 ⟨.commit 1, some ()⟩]

theorem sampleDb_atRest : sampleDb.AtRest where
  cells p c hc := by
    unfold sampleDb at hc
    dsimp only at hc
    split at hc
    · cases hc
      rfl
    · cases hc
  rows := by decide
  live := rfl
  known := by decide

theorem balance_eq_sampleRun :
    ∃ c : Config Nat (Sql Nat Nat) (Reply Nat Nat Int) (Job Nat Nat) (Db Nat Nat),
      (economySystem sampleArithmetic).Reaches System.anyMove (Config.start sampleDb) c ∧
      c.shared.balance 1 = 120 ∧ c.shared.ledgerSum 1 = 60 ∧
      ∀ p, c.shared.balance p =
        sampleDb.balance p + (c.shared.ledgerSum p - sampleDb.ledgerSum p) := by
  have hrun : ((economySystem sampleArithmetic).run System.anyMove (Config.start sampleDb)
      sampleRun).map (fun c => (c.shared.balance 1, c.shared.ledgerSum 1)) = some (120, 60) := by
    decide +kernel
  obtain ⟨c, hreach, hsums⟩ := Machine.reaches_of_map_run hrun
  rw [Prod.mk.injEq] at hsums
  exact ⟨c, hreach, hsums.1, hsums.2, balance_eq_of_reaches sampleArithmetic sampleDb_atRest hreach⟩

end Runs

end SquadPanel.Economy
