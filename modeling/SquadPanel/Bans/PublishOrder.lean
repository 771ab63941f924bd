import Mathlib.Data.Int.ConditionallyCompleteOrder
import Mathlib.Order.ConditionallyCompleteLattice.Basic
import SquadPanel.Bans.Publish
import SquadPanel.Lib.FirstMax

/-!
# The order of the rows

Which ban of a player is published: one that ends last, and among those one issued last.
Where two such bans differ in what is published, the order of the rows decides, and only
there.
-/

namespace SquadPanel.Bans

open Js Lib List

variable {scope : BanlistPublishScope} {now : JsDate} {rows : List ModerationBanRow}
  {playerId : JsString} {row : ModerationBanRow} {byPlayer : JsMap JsString (List ModerationBanRow)}
  {entry : BanlistEntry} {list : List BanlistEntry} {rows' : List ModerationBanRow}

/-! ## The rows of a player -/

def isOf (playerId : JsString) (row : ModerationBanRow) : Bool :=
  row.revertedAt.isNone && row.playerId = playerId

/-- A player's unreverted rows, in the order of the input. -/
def playerRows (playerId : JsString) (rows : List ModerationBanRow) : List ModerationBanRow :=
  rows.filter (isOf playerId)

theorem isOf_iff : isOf playerId row = true ↔ row.revertedAt = none ∧ row.playerId = playerId := by
  simp [isOf]

variable (byPlayer : JsMap JsString (List ModerationBanRow))

/-- One step of the grouping loop. -/
def groupStep (row : ModerationBanRow) :
    JsMap JsString (List ModerationBanRow) :=
  if row.revertedAt.isSome then byPlayer
  else match byPlayer.get row.playerId with
    | some existing => byPlayer.set row.playerId (existing ++ [row])
    | none => byPlayer.set row.playerId [row]

theorem groupByPlayer_eq (rows : List ModerationBanRow) :
    groupByPlayer rows = rows.foldl groupStep JsMap.empty := rfl

theorem groupStep_get (row : ModerationBanRow)
    (playerId : JsString) : ((groupStep byPlayer row).get playerId).getD [] =
      (byPlayer.get playerId).getD [] ++ playerRows playerId [row] := by
  unfold groupStep
  cases hreverted : row.revertedAt with
  | some date => simp [playerRows, isOf, hreverted]
  | none =>
    by_cases hplayer : row.playerId = playerId
    · cases hget : byPlayer.get row.playerId with
      | none | some existing =>
        rw [hplayer] at hget
        simp [playerRows, isOf, hreverted, hplayer, JsMap.get_set, hget]
    · cases hget : byPlayer.get row.playerId <;>
        simp [playerRows, isOf, hreverted, hplayer, JsMap.get_set]

theorem groupByPlayer_get (rows : List ModerationBanRow) (playerId : JsString) :
    ((groupByPlayer rows).get playerId).getD [] = playerRows playerId rows := by
  have hfold (byPlayer : JsMap JsString (List ModerationBanRow)) :
      ((rows.foldl groupStep byPlayer).get playerId).getD [] =
        (byPlayer.get playerId).getD [] ++ playerRows playerId rows := by
    induction rows generalizing byPlayer with
    | nil => exact (append_nil _).symm
    | cons row rows ih =>
      rw [foldl_cons, ih, groupStep_get, append_assoc]
      congr 1
      exact (filter_append ..).symm
  rw [groupByPlayer_eq, hfold]
  rfl

theorem mem_keys_set {key : JsString} {group : List ModerationBanRow} :
    playerId ∈ (byPlayer.set key group).keys ↔ playerId ∈ byPlayer.keys ∨ playerId = key := by
  show playerId ∈ (JsMap.setEntry key group byPlayer.entries).map Prod.fst ↔ _
  rw [JsMap.keys_setEntry]
  split
  · next hin =>
    refine ⟨.inl, fun h => h.elim id ?_⟩
    rintro rfl
    exact hin
  · simp [JsMap.keys]

theorem groupStep_keys : playerId ∈ (groupStep byPlayer row).keys ↔
      playerId ∈ byPlayer.keys ∨ isOf playerId row = true := by
  rw [isOf_iff]
  unfold groupStep
  cases hreverted : row.revertedAt with
  | some date => simp
  | none =>
    cases hget : byPlayer.get row.playerId <;> simp [mem_keys_set, eq_comm]

theorem mem_keys_groupByPlayer :
    playerId ∈ (groupByPlayer rows).keys ↔ ∃ row ∈ rows, isOf playerId row = true := by
  have hfold (byPlayer : JsMap JsString (List ModerationBanRow)) :
      playerId ∈ (rows.foldl groupStep byPlayer).keys ↔
        playerId ∈ byPlayer.keys ∨ ∃ row ∈ rows, isOf playerId row = true := by
    induction rows generalizing byPlayer with
    | nil => simp
    | cons row rows ih =>
      rw [foldl_cons, ih, groupStep_keys, exists_mem_cons_iff, or_assoc]
  rw [groupByPlayer_eq, hfold]
  simp [JsMap.empty, JsMap.keys]

/-! ## The players -/

/-- The order of `Array.prototype.sort` on strings. -/
abbrev UnitsLe (a b : JsString) : Prop := ¬ b < a

instance : Std.Total UnitsLe := ⟨List.le_total⟩

instance : IsTrans JsString UnitsLe := ⟨fun _ _ _ => List.le_trans⟩

/-- The players with an unreverted row, sorted. -/
def playerIds (rows : List ModerationBanRow) : List JsString :=
  (groupByPlayer rows).keys.insertionSort UnitsLe

theorem mem_playerIds : playerId ∈ playerIds rows ↔ ∃ row ∈ rows, isOf playerId row = true := by
  rw [playerIds, mem_insertionSort]
  exact mem_keys_groupByPlayer

theorem pairwise_playerIds (rows : List ModerationBanRow) :
    (playerIds rows).Pairwise UnitsLe := pairwise_insertionSort _ _

theorem nodup_playerIds (rows : List ModerationBanRow) : (playerIds rows).Nodup :=
  (perm_insertionSort _ _).nodup_iff.2 (groupByPlayer rows).nodup

/-- Sorted lists of the same players are the same list. -/
theorem playerIds_eq {ids : List JsString} (hsorted : ids.Pairwise UnitsLe) (hnodup : ids.Nodup)
    (hmem : ∀ playerId, playerId ∈ ids ↔ ∃ row ∈ rows, isOf playerId row = true) :
    ids = playerIds rows := by
  refine List.Perm.eq_of_pairwise (fun a b _ _ => List.le_antisymm) hsorted
    (pairwise_playerIds rows) ?_
  rw [perm_ext_iff_of_nodup hnodup (nodup_playerIds rows)]
  exact fun playerId => (hmem playerId).trans mem_playerIds.symm

/-- The entry published for a player. -/
def published (scope : BanlistPublishScope) (now : JsDate) (rows : List ModerationBanRow)
    (playerId : JsString) : Option BanlistEntry :=
  chosen (candidates scope now (playerRows playerId rows))

theorem buildBanlistEntries_eq (rows : List ModerationBanRow) (scope : BanlistPublishScope)
    (now : JsDate) : buildBanlistEntries rows scope now =
      (playerIds rows).filterMap (published scope now rows) := by
  unfold buildBanlistEntries
  simp only [groupByPlayer_get]
  rfl

/-! ## The choice -/

/-- When an entry ends; a permanent one ends after all others. -/
def endsAt (entry : BanlistEntry) : WithTop Int := entry.expiresAtMs.elim ⊤ (↑·)

theorem endsAt_of_isNone (hnone : entry.expiresAtMs.isNone = true) : endsAt entry = ⊤ := by
  rw [endsAt, Option.isNone_iff_eq_none.1 hnone]
  rfl

theorem endsAt_of_not_isNone (hsome : ¬ entry.expiresAtMs.isNone = true) :
    endsAt entry = (entry.expiresAtMs.getD 0 : Int) := by
  unfold endsAt
  cases hexpiry : entry.expiresAtMs with
  | none => exact absurd (by rw [hexpiry]; rfl) hsome
  | some t => rfl

/-- The choice is the first of the candidates that end last. -/
theorem chosen_firstMax (hchosen : chosen list = some entry) : FirstMax endsAt list entry := by
  cases list with
  | nil => cases hchosen
  | cons first rest =>
    rw [chosen] at hchosen
    cases hfind : (first :: rest).find? fun entry => entry.expiresAtMs.isNone with
    | some permanent =>
      rw [hfind, Option.getD_some] at hchosen
      cases hchosen
      obtain ⟨hnone, front, back, hsplit, hfront⟩ := find?_eq_some_iff_append.1 hfind
      refine ⟨front, back, hsplit, fun y hy => ?_, fun y _ => ?_⟩
      · have hsome := hfront y hy
        rw [Bool.not_eq_true'] at hsome
        rw [endsAt_of_isNone hnone, endsAt_of_not_isNone (by rw [hsome]; decide)]
        exact WithTop.coe_lt_top _
      · rw [endsAt_of_isNone hnone]
        exact le_top
    | none =>
      rw [hfind, Option.getD_none] at hchosen
      cases hchosen
      have hkey (y : BanlistEntry) (hy : y ∈ first :: rest) :
          endsAt y = (y.expiresAtMs.getD 0 : Int) :=
        endsAt_of_not_isNone (find?_eq_none.1 hfind y hy)
      have hscan : FirstMax (fun y : BanlistEntry => y.expiresAtMs.getD 0) (first :: rest)
          (latestOf first rest) := firstMax_foldl _ first rest
      have hlast := hkey _ hscan.mem
      obtain ⟨front, back, hsplit, hfront, hback⟩ := hscan
      refine ⟨front, back, hsplit, fun y hy => ?_, fun y hy => ?_⟩
      · have hin : y ∈ first :: rest := hsplit ▸ mem_append_left _ hy
        rw [hlast, hkey y hin]
        exact WithTop.coe_lt_coe.2 (hfront y hy)
      · have hin : y ∈ first :: rest :=
          hsplit ▸ mem_append_right _ (mem_cons_of_mem _ hy)
        rw [hlast, hkey y hin]
        exact WithTop.coe_le_coe.2 (hback y hy)

theorem chosen_eq_none : chosen list = none ↔ list = [] := by
  cases list <;> simp [chosen]

/-- Issued no earlier. -/
abbrev IssuedLe (a b : ModerationBanRow) : Prop := b.issuedAt.ms - a.issuedAt.ms ≤ 0

instance : Std.Total IssuedLe := ⟨fun a b => by
  unfold IssuedLe
  omega⟩

instance : IsTrans ModerationBanRow IssuedLe := ⟨fun a b c hab hbc => by
  unfold IssuedLe at *
  omega⟩

/-- A row whose ban is active and in scope. -/
def publishable (scope : BanlistPublishScope) (now : JsDate) (row : ModerationBanRow) : Bool :=
  inScope scope (toEntry row) && isActive now (toEntry row)

/-- The rows of a player that can be published, the most recently issued first. -/
def candidateRows (scope : BanlistPublishScope) (now : JsDate) (rows : List ModerationBanRow)
    (playerId : JsString) : List ModerationBanRow :=
  ((playerRows playerId rows).insertionSort IssuedLe).filter (publishable scope now)

theorem mem_candidateRows : row ∈ candidateRows scope now rows playerId ↔
      (row ∈ rows ∧ row.revertedAt = none ∧ row.playerId = playerId) ∧
        publishable scope now row = true := by
  rw [candidateRows, mem_filter, mem_insertionSort, playerRows, mem_filter, isOf_iff]

theorem published_eq (playerId : JsString) : published scope now rows playerId =
      chosen ((candidateRows scope now rows playerId).map toEntry) := by
  rw [published, candidates, candidateRows, filter_map, filter_map, filter_filter]
  rfl

/-! ## The best rows -/

/-- A row that may be published: of the player's rows that can be, none ends later, and
none that ends with it was issued later. -/
structure Best (scope : BanlistPublishScope) (now : JsDate) (rows : List ModerationBanRow)
    (row : ModerationBanRow) : Prop where
  mem : row ∈ candidateRows scope now rows row.playerId
  last : ∀ other ∈ candidateRows scope now rows row.playerId,
    endsAt (toEntry other) ≤ endsAt (toEntry row)
  latest : ∀ other ∈ candidateRows scope now rows row.playerId,
    endsAt (toEntry other) = endsAt (toEntry row) → other.issuedAt.ms ≤ row.issuedAt.ms

theorem Best.perm (hperm : rows'.Perm rows) (hbest : Best scope now rows' row) :
    Best scope now rows row := by
  have hmem (other : ModerationBanRow) (playerId : JsString) :
      other ∈ candidateRows scope now rows' playerId ↔
        other ∈ candidateRows scope now rows playerId := by
    rw [mem_candidateRows, mem_candidateRows, hperm.mem_iff]
  exact ⟨(hmem _ _).1 hbest.mem, fun other hother => hbest.last other ((hmem _ _).2 hother),
    fun other hother => hbest.latest other ((hmem _ _).2 hother)⟩

/-- What is published is the entry of a best row. -/
theorem best_of_published (hpublished : published scope now rows playerId = some entry) :
    ∃ row, Best scope now rows row ∧ row.playerId = playerId ∧ toEntry row = entry ∧
      FirstMax (fun row => endsAt (toEntry row)) (candidateRows scope now rows playerId) row := by
  rw [published_eq] at hpublished
  obtain ⟨row, rfl, hfirst⟩ := (chosen_firstMax hpublished).of_map
  have hplayer : row.playerId = playerId := (mem_candidateRows.1 hfirst.mem).1.2.2
  subst hplayer
  have hsorted : (candidateRows scope now rows row.playerId).Pairwise IssuedLe :=
    (pairwise_insertionSort IssuedLe _).filter _
  refine ⟨row, ⟨hfirst.mem, fun other hother => hfirst.le hother, fun other hother hends => ?_⟩,
    rfl, rfl, hfirst⟩
  have hissued : IssuedLe row other :=
    hfirst.related (fun z => by unfold IssuedLe; omega) hsorted hother hends
  omega

theorem published_of_best (hbest : Best scope now (row :: rows) row) :
    published scope now (row :: rows) row.playerId = some (toEntry row) := by
  obtain ⟨⟨-, hreverted, -⟩, hpub⟩ := mem_candidateRows.1 hbest.mem
  have hof : isOf row.playerId row = true := isOf_iff.2 ⟨hreverted, rfl⟩
  cases hpublished : published scope now (row :: rows) row.playerId with
  | none =>
    rw [published_eq, chosen_eq_none, map_eq_nil_iff] at hpublished
    have hmem := hbest.mem
    rw [hpublished] at hmem
    cases hmem
  | some entry =>
    obtain ⟨other, hother, hplayer, rfl, hfirst⟩ := best_of_published hpublished
    -- rows sorted before the head of the input were issued after it
    obtain ⟨front, back, hsplit, hfront⟩ :=
      exists_split_insertionSort_cons IssuedLe row (playerRows row.playerId rows)
    have hrows : candidateRows scope now (row :: rows) row.playerId =
        front.filter (publishable scope now) ++
          row :: back.filter (publishable scope now) := by
      rw [candidateRows, playerRows, filter_cons_of_pos hof, ← playerRows, hsplit,
        filter_append, filter_cons_of_pos hpub]
    have hends : endsAt (toEntry other) = endsAt (toEntry row) :=
      le_antisymm (hbest.last other hfirst.mem) (hfirst.le hbest.mem)
    have hissued : other.issuedAt.ms ≤ row.issuedAt.ms := hbest.latest other hfirst.mem hends
    rw [hrows] at hfirst
    have heq : other = row := by
      refine hfirst.eq_of_split hends.le fun hin => ?_
      have hlater := hfront other (mem_filter.1 hin).1
      omega
    rw [heq]

/-! ## Permutations -/

theorem playerIds_perm (hperm : rows'.Perm rows) : playerIds rows' = playerIds rows := by
  refine playerIds_eq (pairwise_playerIds rows') (nodup_playerIds rows') fun playerId => ?_
  simp only [mem_playerIds, hperm.mem_iff]

theorem published_isSome_perm (hperm : rows'.Perm rows) (playerId : JsString) :
    (published scope now rows' playerId).isSome = (published scope now rows playerId).isSome := by
  have hnil : candidateRows scope now rows' playerId = [] ↔
      candidateRows scope now rows playerId = [] := by
    simp only [eq_nil_iff_forall_not_mem, mem_candidateRows, hperm.mem_iff]
  have hnone : published scope now rows' playerId = none ↔
      published scope now rows playerId = none := by
    simp only [published_eq, chosen_eq_none, map_eq_nil_iff, hnil]
  rw [Bool.eq_iff_iff, Option.isSome_iff_ne_none, Option.isSome_iff_ne_none]
  exact not_congr hnone

/-- Two selections that keep the same elements and give the same list agree everywhere. -/
theorem eq_of_filterMap_eq {α β : Type} {f g : α → Option β} {l : List α}
    (hsome : ∀ x, (f x).isSome = (g x).isSome) (heq : l.filterMap f = l.filterMap g) :
    ∀ x ∈ l, f x = g x := by
  induction l with
  | nil => simp
  | cons x l ih =>
    have hx := hsome x
    rw [forall_mem_cons]
    cases hf : f x with
    | none =>
      rw [hf] at hx
      have hg : g x = none := by simpa using hx.symm
      rw [filterMap_cons_none hf, filterMap_cons_none hg] at heq
      exact ⟨hg.symm, ih heq⟩
    | some y =>
      rw [hf] at hx
      obtain ⟨z, hg⟩ := Option.isSome_iff_exists.1 hx.symm
      rw [filterMap_cons_some hf, filterMap_cons_some hg] at heq
      obtain ⟨rfl, hrest⟩ := List.cons.inj heq
      exact ⟨hg.symm, ih hrest⟩

/-- The published list is the same for every order of the rows exactly if best rows of one
player have the same entry. -/
theorem buildBanlistEntries_perm_iff (rows : List ModerationBanRow) (scope : BanlistPublishScope)
    (now : JsDate) : (∀ rows' : List ModerationBanRow, rows'.Perm rows →
        buildBanlistEntries rows' scope now = buildBanlistEntries rows scope now) ↔
      ∀ a b, Best scope now rows a → Best scope now rows b → a.playerId = b.playerId →
        toEntry a = toEntry b := by
  constructor
  · intro hsame a b ha hb hplayer
    -- the order with a best row first publishes that row
    have hfirst (row : ModerationBanRow) (hbest : Best scope now rows row) :
        published scope now rows row.playerId = some (toEntry row) := by
      obtain ⟨⟨hin, hreverted, -⟩, -⟩ := mem_candidateRows.1 hbest.mem
      obtain ⟨front, back, hrows⟩ := append_of_mem hin
      have hperm : (row :: (front ++ back)).Perm rows := hrows ▸ perm_middle.symm
      have heq := hsame _ hperm
      rw [buildBanlistEntries_eq, buildBanlistEntries_eq, playerIds_perm hperm] at heq
      have hlisted : row.playerId ∈ playerIds rows :=
        mem_playerIds.2 ⟨row, hin, isOf_iff.2 ⟨hreverted, rfl⟩⟩
      rw [← eq_of_filterMap_eq (published_isSome_perm hperm) heq _ hlisted]
      exact published_of_best (hbest.perm hperm.symm)
    have heq := hfirst a ha
    rw [hplayer, hfirst b hb] at heq
    exact (Option.some.inj heq).symm
  · intro hties rows' hperm
    rw [buildBanlistEntries_eq, buildBanlistEntries_eq, playerIds_perm hperm]
    apply filterMap_congr
    intro playerId _
    have hsome : (published scope now rows' playerId).isSome =
        (published scope now rows playerId).isSome := published_isSome_perm hperm playerId
    cases hpublished : published scope now rows playerId with
    | none =>
      rw [hpublished] at hsome
      simpa using hsome
    | some entry =>
      rw [hpublished] at hsome
      obtain ⟨entry', hpublished'⟩ := Option.isSome_iff_exists.1 hsome
      obtain ⟨row, hbest, hplayer, rfl, -⟩ := best_of_published hpublished
      obtain ⟨row', hbest', hplayer', rfl, -⟩ := best_of_published hpublished'
      rw [hpublished', hties row' row (hbest'.perm hperm) hbest (hplayer'.trans hplayer.symm)]

/-- A permanent ban issued at a given time. -/
def permanentBan (reason : String) : ModerationBanRow where
  playerId := js "player"
  steamId64 := some (js "76561198000000001")
  eosId := none
  nickname := none
  reason := some (js reason)
  banLength := some (js "0")
  issuedAt := ⟨1600000000000, by decide⟩
  revertedAt := none
  admin := none

/-- Two bans issued in the same millisecond are published in the order of the rows. -/
theorem buildBanlistEntries_not_perm : ([permanentBan "cheating", permanentBan "griefing"]).Perm
        [permanentBan "griefing", permanentBan "cheating"] ∧
      buildBanlistEntries [permanentBan "cheating", permanentBan "griefing"] .allActive
          ⟨1700000000000, by decide⟩ ≠
        buildBanlistEntries [permanentBan "griefing", permanentBan "cheating"] .allActive
          ⟨1700000000000, by decide⟩ :=
  ⟨List.Perm.swap .., by decide +kernel⟩

end SquadPanel.Bans
