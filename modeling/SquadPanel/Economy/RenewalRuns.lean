import SquadPanel.Economy.Renewal

/-!
# Overlapping renewal passes

Any number of passes and cancellations run interleaved.  The compare-and-set on
`next_renewal_at` makes every due period charged at most once and never after the
subscription has ended.  The expiry that follows a refused charge has no such
protection: it is right exactly when the row still carries the scanned instant.
-/

namespace SquadPanel.Economy

open Js Lib Prog List Option
open Config (start)

variable {P T Role : Type} {subs : JsMap String (Subscription P T)}
  {subs' : JsMap String (Subscription P T)} {counts : SubscriptionRenewalResult} {g : RenewalGhost}
  {sub : DueSubscription P T Role} {now : Int}

/-! ## What a step does to the subscriptions -/

/-- A change of one subscription. -/
inductive RenewalEffect where
  | charged (id : String) (dueAt nextRenewalAt : Int)
  | ended (id : String) (status : SubscriptionStatus)
deriving DecidableEq

/-- The change a step has made, by its answer. -/
def effect : Event (RenewalCall P T Role) (RenewalReply P T Role) → Option RenewalEffect
  | ⟨.chargeRenewal input, r⟩ =>
    match r.done with
    | some (.ok _ _ _) => some (.charged input.subscriptionId input.dueAt input.nextRenewalAt)
    | _ => none
  | ⟨.expireSubscription id _, r⟩ => if r.done = some true then some (.ended id .expired) else none
  | ⟨.cancelSubscription id _ _, r⟩ =>
    if r.done = some true then some (.ended id .cancelled) else none
  | _ => none

/-- A change is made to an active row, a charge to one that is due as given. -/
def RenewalEffect.Applies (subs subs' : JsMap String (Subscription P T)) : RenewalEffect → Prop
  | .charged id dueAt nextRenewalAt =>
    ∃ sub, subs.get id = some sub ∧ sub.status = .active ∧ sub.nextRenewalAt = dueAt ∧
      subs' = subs.set id { sub with nextRenewalAt := nextRenewalAt }
  | .ended id status =>
    status ≠ .active ∧ ∃ sub at', subs.get id = some sub ∧ sub.status = .active ∧
      subs' = subs.set id { sub with status := status, cancelledAt := at' }

/-- The subscriptions after a step with this change. -/
def AppliesOpt (subs subs' : JsMap String (Subscription P T)) : Option RenewalEffect → Prop
  | none => subs' = subs
  | some change => change.Applies subs subs'

namespace RenewalDb

variable {db db' : RenewalDb P T Role}

theorem expireSubscription_applies (id : String) (now : Int) :
    AppliesOpt db.subscriptions (db.expireSubscription id now).1.subscriptions
      (if (db.expireSubscription id now).2 = true then some (.ended id .expired) else none) := by
  unfold expireSubscription
  split
  · next sub hsub =>
    split
    · next hactive => exact ⟨nofun, sub, some now, hsub, hactive, rfl⟩
    · rfl
  · rfl

variable [DecidableEq P]

theorem cancelSubscription_applies (id : String) (playerId : P) (now : Int) :
    AppliesOpt db.subscriptions (db.cancelSubscription id playerId now).1.subscriptions
      (if (db.cancelSubscription id playerId now).2 = true then some (.ended id .cancelled)
        else none) := by
  unfold cancelSubscription
  split
  · next sub hsub =>
    split
    · next hactive => exact ⟨nofun, sub, some now, hsub, hactive.2, rfl⟩
    · rfl
  · rfl

variable [DecidableEq Role]

theorem chargeRenewal_applies (input : ChargeRenewalInput P T Role) :
    AppliesOpt db.subscriptions (db.chargeRenewal input).1.subscriptions
      (match (db.chargeRenewal input).2 with
        | .ok _ _ _ => some (.charged input.subscriptionId input.dueAt input.nextRenewalAt)
        | _ => none) := by
  unfold chargeRenewal
  split
  · rfl
  split
  · rfl
  split <;> try rfl
  split
  · rfl
  · next sub hsub =>
    split
    · next hdue => exact ⟨sub, hsub, hdue.1, hdue.2, rfl⟩
    · rfl

variable [DecidableEq T]

theorem perform_applies {batchSize : Nat} {e : RenewalCall P T Role}
    {r : RenewalReply P T Role e} (hperform : db.perform batchSize e r = some db') :
    AppliesOpt db.subscriptions db'.subscriptions (effect ⟨e, r⟩) := by
  unfold perform at hperform
  cases hdone : r.done with
  | none =>
    rw [hdone] at hperform
    cases hperform
    cases e <;> simp [effect, hdone, AppliesOpt]
  | some a =>
    rw [hdone] at hperform
    cases e <;> simp only [succeed, ite_none_right_eq_some, some.injEq] at hperform
    case chargeRenewal input =>
      obtain ⟨rfl, rfl⟩ := hperform
      simp only [effect, hdone]
      have happlies := @chargeRenewal_applies P T Role db _ _ input
      revert happlies
      cases (db.chargeRenewal input).2 <;> exact id
    case expireSubscription id now =>
      obtain ⟨rfl, rfl⟩ := hperform
      simpa only [effect, hdone, some.injEq] using expireSubscription_applies id now
    case cancelSubscription id playerId now =>
      obtain ⟨rfl, rfl⟩ := hperform
      simpa only [effect, hdone, some.injEq] using
        cancelSubscription_applies id playerId now
    case findDueSubscriptions =>
      obtain ⟨_, rfl⟩ := hperform
      rfl
    case writeAuditEntry | notifySubscriptionExpired | emit =>
      subst hperform
      rfl

end RenewalDb

/-! ## Rows only move forward -/

/-- An ended row stays as it ended and `next_renewal_at` does not go back. -/
def Forward (subs subs' : JsMap String (Subscription P T)) : Prop :=
  ∀ id sub, subs.get id = some sub → ∃ sub', subs'.get id = some sub' ∧
    (sub.status ≠ .active → sub'.status = sub.status) ∧ sub.nextRenewalAt ≤ sub'.nextRenewalAt

theorem Forward.refl (subs : JsMap String (Subscription P T)) : Forward subs subs :=
  fun _ sub hsub => ⟨sub, hsub, fun _ => rfl, Int.le_refl _⟩

theorem forward_set {id : String} {sub sub' : Subscription P T} (hsub : subs.get id = some sub)
    (hactive : sub.status = .active) (hle : sub.nextRenewalAt ≤ sub'.nextRenewalAt) :
    Forward subs (subs.set id sub') := by
  intro id' sub₀ hsub₀
  rw [JsMap.get_set]
  by_cases heq : id = id'
  · subst heq
    rw [hsub] at hsub₀
    cases hsub₀
    rw [if_pos rfl]
    exact ⟨sub', rfl, fun h => absurd hactive h, hle⟩
  · rw [if_neg heq]
    exact Forward.refl subs id' sub₀ hsub₀

/-- A charge moves `next_renewal_at` ahead. -/
def RenewalEffect.Ahead : RenewalEffect → Prop
  | .charged _ dueAt nextRenewalAt => dueAt < nextRenewalAt
  | .ended _ _ => True

theorem forward_of_applies {change : RenewalEffect}
    (happlies : change.Applies subs subs') (hahead : change.Ahead) : Forward subs subs' := by
  cases change with
  | charged id dueAt nextRenewalAt =>
    obtain ⟨sub, hsub, hactive, rfl, rfl⟩ := happlies
    exact forward_set hsub hactive (Int.le_of_lt hahead)
  | ended id status =>
    obtain ⟨_, sub, at', hsub, hactive, rfl⟩ := happlies
    exact forward_set hsub hactive (Int.le_refl _)

theorem forward_of_appliesOpt {change : Option RenewalEffect}
    (happlies : AppliesOpt subs subs' change)
    (hahead : ∀ made, change = some made → made.Ahead) : Forward subs subs' := by
  cases change with
  | none =>
    cases happlies
    exact Forward.refl subs
  | some made => exact forward_of_applies happlies (hahead made rfl)

/-! ## What a pass keeps to -/

/-- The due period a pass is working on is that of its last charge. -/
def attempted (period : Option (String × Int)) : RenewalCall P T Role → Option (String × Int)
  | .chargeRenewal input => some (input.subscriptionId, input.dueAt)
  | _ => period

def period (hist : List (Event (RenewalCall P T Role) (RenewalReply P T Role))) :
    Option (String × Int) :=
  hist.foldl (fun p ev => attempted p ev.call) none

/-- The due periods a step has scanned. -/
def scanned : (e : RenewalCall P T Role) → RenewalReply P T Role e → List (String × Int)
  | .findDueSubscriptions _, r => (r.done.getD []).map fun sub => (sub.id, sub.nextRenewalAt)
  | _, _ => []

structure RenewalGhost where
  scanned : List (String × Int)
  period : Option (String × Int)

/-- A pass charges what it has scanned, by a period that moves ahead, and expires only what it
has just tried to charge. -/
def renewalProtocol : Protocol (RenewalCall P T Role) (RenewalReply P T Role) RenewalGhost where
  pre e g :=
    match e with
    | .chargeRenewal input =>
      (input.subscriptionId, input.dueAt) ∈ g.scanned ∧ input.dueAt < input.nextRenewalAt
    | .expireSubscription id _ => ∃ dueAt, g.period = some (id, dueAt) ∧ (id, dueAt) ∈ g.scanned
    | _ => True
  next e r g := ⟨g.scanned ++ scanned e r, attempted g.period e⟩

theorem wp_attempt_bind {β : Type} (e : RenewalCall P T Role)
    (f : Except String (RenewalAnswer P T Role e) → RenewalProg P T Role β)
    (Q : β → RenewalGhost → Prop) (g : RenewalGhost) : Wp renewalProtocol (attempt e >>= f) Q g ↔
      renewalProtocol.pre e g ∧ ∀ r, Wp renewalProtocol (f r.seen) Q (renewalProtocol.next e r g) :=
  Iff.rfl

theorem scanned_subset_next (e : RenewalCall P T Role) (r : RenewalReply P T Role e)
    (g : RenewalGhost) : g.scanned ⊆ (renewalProtocol.next e r g).scanned :=
  subset_append_left _ _

theorem wp_endSubscription {reason : RenewalFailureReason} {balance : Option Int}
    (hperiod : g.period = some (sub.id, sub.nextRenewalAt))
    (hscanned : (sub.id, sub.nextRenewalAt) ∈ g.scanned) :
    Wp renewalProtocol (endSubscription now counts sub reason balance)
      (fun _ g' => g.scanned ⊆ g'.scanned) g := by
  unfold endSubscription
  rw [wp_attempt_bind]
  refine ⟨⟨sub.nextRenewalAt, hperiod, hscanned⟩, fun r => ?_⟩
  have hexpire := scanned_subset_next (.expireSubscription sub.id now) r g
  split
  · exact hexpire
  · exact hexpire
  · rw [wp_attempt_bind]
    refine ⟨trivial, fun r' => ?_⟩
    have haudit := List.Subset.trans hexpire (scanned_subset_next _ r' _)
    split
    · exact haudit
    · rw [wp_attempt_bind]
      refine ⟨trivial, fun r'' => ?_⟩
      have hnotify := List.Subset.trans haudit (scanned_subset_next _ r'' _)
      split
      · exact hnotify
      · exact hnotify

theorem wp_renewOne (hscanned : (sub.id, sub.nextRenewalAt) ∈ g.scanned) :
    Wp renewalProtocol (renewOne now counts sub) (fun _ g' => g.scanned ⊆ g'.scanned) g := by
  unfold renewOne
  rw [wp_attempt_bind]
  have hahead : sub.nextRenewalAt < nextRenewalAfter sub.nextRenewalAt sub.renewsEveryDays := by
    have hpos := sub.renewsEveryDays_pos
    unfold nextRenewalAfter DAY_MS
    omega
  refine ⟨⟨hscanned, hahead⟩, fun r => ?_⟩
  have hcharge := scanned_subset_next (.chargeRenewal (chargeInput now sub)) r g
  -- whatever the reason, the subscription just tried is the one that ends
  have hend (reason : RenewalFailureReason) (balance : Option Int) :
      Wp renewalProtocol (endSubscription now counts sub reason balance)
        (fun _ g' => g.scanned ⊆ g'.scanned)
        (renewalProtocol.next (.chargeRenewal (chargeInput now sub)) r g) :=
    wp_mono (fun _ _ h => List.Subset.trans hcharge h) (wp_endSubscription rfl (hcharge hscanned))
  split
  · exact hcharge
  · exact hcharge
  · exact hcharge
  all_goals exact hend _ _

theorem wp_renewAll {due : List (DueSubscription P T Role)}
    (hscanned : ∀ sub ∈ due, (sub.id, sub.nextRenewalAt) ∈ g.scanned) :
    Wp renewalProtocol (renewAll now counts due) (fun _ _ => True) g := by
  induction due generalizing counts g with
  | nil => trivial
  | cons sub due ih =>
    unfold renewAll
    rw [wp_bind]
    apply wp_mono _ (wp_renewOne (hscanned sub mem_cons_self))
    intro renewed g' hsubset
    have hrest (g'' : RenewalGhost) (hkeeps : g'.scanned ⊆ g''.scanned) :
        ∀ sub ∈ due, (sub.id, sub.nextRenewalAt) ∈ g''.scanned :=
      fun sub hsub => hkeeps (hsubset (hscanned sub (mem_cons_of_mem _ hsub)))
    split
    · exact ih (hrest g' (List.Subset.refl _))
    · rw [wp_attempt_bind]
      refine ⟨trivial, fun r => ?_⟩
      split
      · exact ih (hrest _ (scanned_subset_next _ r g'))
      · trivial

theorem wp_renewalPass (now : Int) (g : RenewalGhost) :
    Wp renewalProtocol (renewalPass now : RenewalProg P T Role _) (fun _ _ => True) g := by
  unfold renewalPass
  rw [wp_attempt_bind]
  refine ⟨trivial, fun r => ?_⟩
  split
  · trivial
  · next due hseen =>
    have hdone : r.done = some due := by
      cases r <;> cases hseen
      rfl
    have hscanned : ∀ sub ∈ due, (sub.id, sub.nextRenewalAt) ∈
        (renewalProtocol.next (.findDueSubscriptions now) r g).scanned := by
      intro sub hsub
      apply mem_append_right
      show _ ∈ (r.done.getD []).map _
      rw [hdone]
      exact mem_map_of_mem hsub
    rw [wp_bind]
    apply wp_mono _ (wp_renewAll hscanned)
    intro result g' _
    split
    · trivial
    · rw [wp_attempt_bind]
      refine ⟨trivial, fun r => ?_⟩
      split <;> trivial

theorem wp_runSubscriptionRenewalTick (now : Int) (g : RenewalGhost) :
    Wp renewalProtocol (runSubscriptionRenewalTick now : RenewalProg P T Role _)
      (fun _ _ => True) g := by
  unfold runSubscriptionRenewalTick
  rw [wp_bind]
  apply wp_mono _ (wp_renewalPass now g)
  intro result g' _
  split
  · trivial
  · rw [wp_attempt_bind]
    refine ⟨trivial, fun r => ?_⟩
    split <;> trivial

/-! ## The log of a run -/

abbrev RenewalConfig (ι P T Role : Type) : Type :=
  Config ι (RenewalCall P T Role) (RenewalReply P T Role) (RenewalJob P) (RenewalDb P T Role)

abbrev RenewalRecord (ι P T Role : Type) : Type :=
  Record ι (RenewalCall P T Role) (RenewalReply P T Role) (RenewalJob P)

section Log

variable {ι : Type} {log : List (RenewalRecord ι P T Role)} {rec : RenewalRecord ι P T Role}
  {subs subs' : JsMap String (Subscription P T)} {due : String × Int}

/-- The due period has been charged. -/
def Charged (log : List (RenewalRecord ι P T Role)) (id : String) (dueAt : Int) : Prop :=
  ∃ rec ∈ log, ∃ nextRenewalAt, effect rec.event = some (.charged id dueAt nextRenewalAt)

/-- Every due period is charged at most once. -/
def ChargedOnce (log : List (RenewalRecord ι P T Role)) : Prop :=
  log.Pairwise fun earlier later => ∀ id dueAt next next',
    effect earlier.event = some (.charged id dueAt next) →
      effect later.event ≠ some (.charged id dueAt next')

/-- Nothing is charged for a subscription that has ended. -/
def NotChargedAfter (status : SubscriptionStatus) (log : List (RenewalRecord ι P T Role)) :
    Prop :=
  log.Pairwise fun earlier later => ∀ id dueAt next,
    effect earlier.event = some (.ended id status) →
      effect later.event ≠ some (.charged id dueAt next)

/-- A pass expires only what it has tried to charge, and never what has been charged. -/
structure ExpiredUncharged (log : List (RenewalRecord ι P T Role)) : Prop where
  attempted : ∀ rec ∈ log, ∀ id, effect rec.event = some (.ended id .expired) →
    ∃ dueAt, period rec.hist = some (id, dueAt)
  uncharged : log.Pairwise fun earlier later => ∀ id dueAt next,
    effect later.event = some (.ended id .expired) → period later.hist = some (id, dueAt) →
      effect earlier.event ≠ some (.charged id dueAt next)

/-- What the subscriptions tell about the log. -/
structure Remembers (subs : JsMap String (Subscription P T))
    (log : List (RenewalRecord ι P T Role)) : Prop where
  charged : ∀ id dueAt, Charged log id dueAt →
    ∃ sub, subs.get id = some sub ∧ dueAt < sub.nextRenewalAt
  ended : ∀ rec ∈ log, ∀ id status, effect rec.event = some (.ended id status) →
    ∃ sub, subs.get id = some sub ∧ sub.status = status ∧ status ≠ .active

/-- A scanned row is as scanned, or its period has been charged since. -/
def Scanned (subs : JsMap String (Subscription P T)) (log : List (RenewalRecord ι P T Role))
    (due : String × Int) : Prop :=
  ∃ sub, subs.get due.1 = some sub ∧ (sub.nextRenewalAt = due.2 ∨ Charged log due.1 due.2)

theorem Charged.append {id : String} {dueAt : Int} (hcharged : Charged log id dueAt) :
    Charged (log ++ [rec]) id dueAt := by
  obtain ⟨rec', hrec', hnext⟩ := hcharged
  exact ⟨rec', mem_append_left _ hrec', hnext⟩

theorem Remembers.forward (hremembers : Remembers subs log) (hforward : Forward subs subs') :
    Remembers subs' log where
  charged id dueAt hcharged := by
    obtain ⟨sub, hsub, hlt⟩ := hremembers.charged id dueAt hcharged
    obtain ⟨sub', hsub', _, hle⟩ := hforward id sub hsub
    exact ⟨sub', hsub', Int.lt_of_lt_of_le hlt hle⟩
  ended rec hrec id status heffect := by
    obtain ⟨sub, hsub, hstatus, hne⟩ := hremembers.ended rec hrec id status heffect
    obtain ⟨sub', hsub', hkept, _⟩ := hforward id sub hsub
    rw [← hstatus] at hne ⊢
    exact ⟨sub', hsub', hkept hne, hne⟩

theorem Remembers.append (hremembers : Remembers subs log)
    (happlies : AppliesOpt subs subs' (effect rec.event))
    (hahead : ∀ change, effect rec.event = some change → change.Ahead) :
    Remembers subs' (log ++ [rec]) := by
  have hold := hremembers.forward (forward_of_appliesOpt happlies hahead)
  refine ⟨?_, ?_⟩
  · rintro id dueAt ⟨rec', hrec', next, hcharged⟩
    obtain hrec' | hrec' := mem_append.1 hrec'
    · exact hold.charged id dueAt ⟨rec', hrec', next, hcharged⟩
    · rw [mem_singleton.1 hrec'] at hcharged
      have hlt : dueAt < next := hahead _ hcharged
      rw [hcharged] at happlies
      obtain ⟨sub, _, _, _, rfl⟩ := happlies
      exact ⟨_, by rw [JsMap.get_set, if_pos rfl], hlt⟩
  · intro rec' hrec' id status hended
    obtain hrec' | hrec' := mem_append.1 hrec'
    · exact hold.ended rec' hrec' id status hended
    · rw [mem_singleton.1 hrec'] at hended
      rw [hended] at happlies
      obtain ⟨hne, sub, at', _, _, rfl⟩ := happlies
      exact ⟨_, by rw [JsMap.get_set, if_pos rfl], rfl, hne⟩

theorem Scanned.set {id : String} {sub sub' : Subscription P T} (hscanned : Scanned subs log due)
    (hsub : subs.get id = some sub) (hrow : due.1 = id → sub.nextRenewalAt = due.2 →
      sub'.nextRenewalAt = due.2 ∨ Charged log due.1 due.2) :
    Scanned (subs.set id sub') log due := by
  obtain ⟨sub₀, hsub₀, hdue⟩ := hscanned
  unfold Scanned
  rw [JsMap.get_set]
  by_cases heq : id = due.1
  · rw [← heq, hsub] at hsub₀
    cases hsub₀
    rw [if_pos heq]
    exact ⟨sub', rfl, hdue.elim (hrow heq.symm) .inr⟩
  · rw [if_neg heq]
    exact ⟨sub₀, hsub₀, hdue⟩

theorem Scanned.append (hscanned : Scanned subs log due)
    (happlies : AppliesOpt subs subs' (effect rec.event)) : Scanned subs' (log ++ [rec]) due := by
  have hkept : Scanned subs (log ++ [rec]) due := by
    obtain ⟨sub, hsub, hdue⟩ := hscanned
    exact ⟨sub, hsub, hdue.imp_right Charged.append⟩
  cases heffect : effect rec.event with
  | none =>
    rw [heffect] at happlies
    cases happlies
    exact hkept
  | some change =>
    rw [heffect] at happlies
    cases change with
    | charged id dueAt next =>
      -- the charge is of the scanned period, so the log now has it
      obtain ⟨sub, hsub, _, hdue, rfl⟩ := happlies
      refine hkept.set hsub fun heq hsame => ?_
      refine .inr ⟨rec, mem_append_right _ (mem_singleton_self _), next, ?_⟩
      rw [heffect, heq, ← hsame, hdue]
    | ended id status =>
      obtain ⟨_, sub, at', hsub, _, rfl⟩ := happlies
      exact hkept.set hsub fun _ hsame => .inl hsame

/-- A charge finds no earlier charge of its period and no end of its subscription. -/
theorem Remembers.charges (hremembers : Remembers subs log)
    (happlies : AppliesOpt subs subs' (effect rec.event)) {id : String} {dueAt next : Int}
    (heffect : effect rec.event = some (.charged id dueAt next)) :
    ¬ Charged log id dueAt ∧
      ∀ rec' ∈ log, ∀ status, effect rec'.event ≠ some (.ended id status) := by
  rw [heffect] at happlies
  obtain ⟨sub, hsub, hactive, hdue, _⟩ := happlies
  constructor
  · intro hcharged
    obtain ⟨sub', hsub', hlt⟩ := hremembers.charged id dueAt hcharged
    rw [hsub] at hsub'
    cases hsub'
    omega
  · intro rec' hrec' status hended
    obtain ⟨sub', hsub', hstatus, hne⟩ := hremembers.ended rec' hrec' id status hended
    rw [hsub] at hsub'
    cases hsub'
    exact hne (hstatus.symm.trans hactive)

theorem pairwise_append_singleton {α : Type} {R : α → α → Prop} {xs : List α} {x : α}
    (hxs : xs.Pairwise R) (hlast : ∀ y ∈ xs, R y x) : (xs ++ [x]).Pairwise R := by
  refine pairwise_append.2 ⟨hxs, pairwise_singleton _ _, fun y hy z hz => ?_⟩
  rw [mem_singleton.1 hz]
  exact hlast y hy

theorem ChargedOnce.append (honce : ChargedOnce log) (hremembers : Remembers subs log)
    (happlies : AppliesOpt subs subs' (effect rec.event)) : ChargedOnce (log ++ [rec]) := by
  apply pairwise_append_singleton honce
  intro earlier hearlier id dueAt next next' hcharged hagain
  exact (hremembers.charges happlies hagain).1 ⟨earlier, hearlier, next, hcharged⟩

theorem NotChargedAfter.append {status : SubscriptionStatus} (hafter : NotChargedAfter status log)
    (hremembers : Remembers subs log) (happlies : AppliesOpt subs subs' (effect rec.event)) :
    NotChargedAfter status (log ++ [rec]) := by
  apply pairwise_append_singleton hafter
  intro earlier hearlier id dueAt next hended hcharged
  exact (hremembers.charges happlies hcharged).2 earlier hearlier status hended

theorem ExpiredUncharged.append (hexpired : ExpiredUncharged log)
    (hrec : ∀ id, effect rec.event = some (.ended id .expired) →
      ∃ dueAt, period rec.hist = some (id, dueAt) ∧ ¬ Charged log id dueAt) :
    ExpiredUncharged (log ++ [rec]) where
  attempted rec' hrec' id heffect := by
    obtain hrec' | hrec' := mem_append.1 hrec'
    · exact hexpired.attempted rec' hrec' id heffect
    · rw [mem_singleton.1 hrec'] at heffect ⊢
      obtain ⟨dueAt, hperiod, _⟩ := hrec id heffect
      exact ⟨dueAt, hperiod⟩
  uncharged := by
    apply pairwise_append_singleton hexpired.uncharged
    intro earlier hearlier id dueAt next heffect hperiod hcharged
    obtain ⟨dueAt', hperiod', hnot⟩ := hrec id heffect
    rw [hperiod] at hperiod'
    cases hperiod'
    exact hnot ⟨earlier, hearlier, next, hcharged⟩

end Log

/-! ## Runs -/

section Runs

variable {e : RenewalCall P T Role} {r : RenewalReply P T Role e} {id : String}
  {db : RenewalDb P T Role} {ι : Type} {c : RenewalConfig ι P T Role} {db' : RenewalDb P T Role}

theorem ahead_of_pre {change : RenewalEffect} (hpre : renewalProtocol.pre e g)
    (heffect : effect ⟨e, r⟩ = some change) : change.Ahead := by
  cases e <;> simp only [effect, reduceCtorEq, ite_none_right_eq_some, some.injEq] at heffect
  case chargeRenewal input =>
    split at heffect
    · cases heffect
      exact hpre.2
    · cases heffect
  case expireSubscription | cancelSubscription =>
    obtain ⟨_, rfl⟩ := heffect
    trivial

theorem eq_expireSubscription (heffect : effect ⟨e, r⟩ = some (.ended id .expired)) :
    ∃ now, e = .expireSubscription id now := by
  cases e <;> simp only [effect, reduceCtorEq, ite_none_right_eq_some, some.injEq] at heffect
  case chargeRenewal input =>
    split at heffect <;> cases heffect
  case expireSubscription id' now =>
    obtain ⟨_, heq⟩ := heffect
    cases heq
    exact ⟨now, rfl⟩
  case cancelSubscription =>
    cases heffect.2

/-- The ghost state of a process, from the steps it has made. -/
def ghostOf (proc : Proc (RenewalCall P T Role) (RenewalReply P T Role) (RenewalJob P)) :
    RenewalGhost :=
  renewalProtocol.ghost (fun _ => ⟨[], none⟩) proc.arg proc.hist

theorem ghost_period (hist : List (Event (RenewalCall P T Role) (RenewalReply P T Role)))
    (arg : RenewalJob P) :
    (renewalProtocol.ghost (fun _ => ⟨[], none⟩) arg hist).period = period hist :=
  (foldl_hom RenewalGhost.period fun _ _ => rfl).symm

/-- The invariant of a run. -/
structure RenewalInv (c : RenewalConfig ι P T Role) : Prop where
  remembers : Remembers c.shared.subscriptions c.log
  once : ChargedOnce c.log
  after : ∀ status, NotChargedAfter status c.log
  scanned : ∀ pid proc, c.procs pid = some proc → ∀ due ∈ (ghostOf proc).scanned,
    Scanned c.shared.subscriptions c.log due

theorem renewalInv_start (db : RenewalDb P T Role) :
    RenewalInv (start db : RenewalConfig ι P T Role) where
  remembers := by
    constructor
    · rintro id dueAt ⟨rec, hrec, _⟩
      cases hrec
    · intro rec hrec
      cases hrec
  once := List.Pairwise.nil
  after status := List.Pairwise.nil
  scanned := nofun

/-- A subscription that is new or unchanged does not matter to the log. -/
theorem RenewalInv.environment (hinv : RenewalInv c)
    (hsubs : ∀ id sub, c.shared.subscriptions.get id = some sub →
      db'.subscriptions.get id = some sub) : RenewalInv { c with shared := db' } where
  remembers := hinv.remembers.forward fun id sub hsub =>
    ⟨sub, hsubs id sub hsub, fun _ => rfl, Int.le_refl _⟩
  __ := hinv
  scanned pid proc hproc due hdue := by
    obtain ⟨sub, hsub, hsame⟩ := hinv.scanned pid proc hproc due hdue
    exact ⟨sub, hsubs due.1 sub hsub, hsame⟩

variable [DecidableEq ι]

theorem RenewalInv.setProc (hinv : RenewalInv c) (pid : ι)
    {p : Option (Proc (RenewalCall P T Role) (RenewalReply P T Role) (RenewalJob P))}
    (hnew : ∀ proc, p = some proc → (ghostOf proc).scanned = []) :
    RenewalInv (c.setProc pid p) where
  __ := hinv
  scanned := by
    refine Config.forall_setProc (fun proc hp due hdue => ?_) hinv.scanned
    rw [hnew proc hp] at hdue
    cases hdue

variable [DecidableEq P] [DecidableEq T] [DecidableEq Role] {batchSize : Nat}
  {hist : List (Event (RenewalCall P T Role) (RenewalReply P T Role))} {arg : RenewalJob P}
  {c' : RenewalConfig ι P T Role}
  {guard : RenewalConfig ι P T Role → Label ι (RenewalCall P T Role) (RenewalReply P T Role)
    (RenewalJob P) (RenewalMove P T Role) → Bool}
  {db₀ : RenewalDb P T Role}

/-- What a scan returns is as the table has it. -/
theorem scanned_of_perform (hperform : db.perform batchSize e r = some db') {due : String × Int}
    (hdue : due ∈ scanned e r) :
    ∃ sub, db'.subscriptions.get due.1 = some sub ∧ sub.nextRenewalAt = due.2 := by
  cases e <;> simp only [scanned, not_mem_nil] at hdue
  case findDueSubscriptions now =>
    unfold RenewalDb.perform at hperform
    cases hdone : r.done with
    | none =>
      rw [hdone] at hdue
      cases hdue
    | some page =>
      rw [hdone] at hperform hdue
      simp only [RenewalDb.succeed, ite_none_right_eq_some, some.injEq] at hperform
      obtain ⟨hpage, rfl⟩ := hperform
      obtain ⟨row, hrow, rfl⟩ := mem_map.1 hdue
      obtain ⟨⟨id, sub⟩, hentry, hrow⟩ := mem_filterMap.1 (hpage.1 row hrow)
      simp only [RenewalDb.dueRow, bind_eq_bind, bind_eq_some_iff,
        ite_none_right_eq_some, some.injEq] at hrow
      obtain ⟨_, _, tier, _, _, rfl⟩ := hrow
      exact ⟨sub, JsMap.get_eq_some_of_mem hentry, rfl⟩

theorem RenewalInv.answered (hinv : RenewalInv c) {pid : ι}
    {prog rest : Prog (RenewalCall P T Role) (RenewalReply P T Role) Unit}
    (hproc : c.procs pid = some ⟨arg, hist, prog⟩)
    (hpre : renewalProtocol.pre e (ghostOf ⟨arg, hist, prog⟩))
    (hperform : c.shared.perform batchSize e r = some db') :
    RenewalInv (System.answered c pid arg hist ⟨e, r⟩ rest db') := by
  have happlies := RenewalDb.perform_applies hperform
  refine ⟨?_, ?_, fun status => ?_, ?_⟩
  · exact hinv.remembers.append happlies fun change heffect => ahead_of_pre hpre heffect
  · exact hinv.once.append hinv.remembers happlies
  · exact (hinv.after status).append hinv.remembers happlies
  · intro q proc hq due hdue
    obtain ⟨_, hnew⟩ | ⟨_, hold⟩ := Config.setProc_procs_eq_some hq
    · cases hnew
      unfold ghostOf at hdue
      rw [Protocol.ghost_append_singleton] at hdue
      obtain hdue | hdue := mem_append.1 hdue
      · exact (hinv.scanned pid _ hproc due hdue).append happlies
      · obtain ⟨sub, hsub, hsame⟩ := scanned_of_perform hperform hdue
        exact ⟨sub, hsub, .inl hsame⟩
    · exact (hinv.scanned q proc hold due hdue).append happlies

theorem get_of_environment {move : RenewalMove P T Role}
    (hmove : db.environment move = some db') {sub : Subscription P T}
    (hsub : db.subscriptions.get id = some sub) : db'.subscriptions.get id = some sub := by
  cases move <;> simp only [RenewalDb.environment, ite_none_right_eq_some,
    some.injEq] at hmove
  case subscribe id' sub' =>
    obtain ⟨⟨hfresh, _⟩, rfl⟩ := hmove
    rw [JsMap.get_set, if_neg]
    · exact hsub
    · rintro rfl
      rw [hfresh] at hsub
      cases hsub
  all_goals
    subst hmove
    exact hsub

theorem wp_renewalBody (job : RenewalJob P) (g : RenewalGhost) :
    (((renewalSystem batchSize).body job : RenewalProg P T Role Unit)).Wp renewalProtocol
      (fun _ _ => True) g := by
  cases job with
  | tick now =>
    show Wp renewalProtocol (runSubscriptionRenewalTick now >>= _) _ g
    rw [wp_bind]
    exact wp_mono (fun _ _ _ => trivial) (wp_runSubscriptionRenewalTick now g)
  | cancel id playerId now => exact ⟨trivial, fun _ => trivial⟩

variable
  {l : Label ι (RenewalCall P T Role) (RenewalReply P T Role) (RenewalJob P) (RenewalMove P T Role)}

theorem renewalInv_step
    (hfollows : System.Follows renewalProtocol (fun _ => True) (fun _ => ⟨[], none⟩) c)
    (hinv : RenewalInv c) (hstep : (renewalSystem batchSize).step c l = some c') :
    RenewalInv c' := by
  obtain ⟨pid, arg, _, _, rfl⟩ | ⟨pid, arg, hist, e, k, r, s, _, hproc, hperform, rfl⟩ |
    ⟨pid, _, rfl⟩ | ⟨move, s, _, henv, rfl⟩ := System.step_cases hstep
  · apply hinv.setProc pid
    rintro _ ⟨⟩
    rfl
  · exact hinv.answered hproc (hfollows.procs pid _ hproc).1 hperform
  · exact hinv.setProc pid nofun
  · exact hinv.environment fun id sub hsub => get_of_environment henv hsub

section
variable (hreach : (renewalSystem batchSize).Reaches guard (start db₀) c)
include hreach

theorem renewalInv_of_reaches : RenewalInv c := by
  apply System.invariant_of_reaches (fun job => wp_renewalBody job ⟨[], none⟩) _ _ hreach
  · exact renewalInv_start db₀
  · intro c l c' hfollows _ hinv hstep
    exact renewalInv_step hfollows hinv hstep

/-- A pass that expires a subscription expires one whose due period has been charged exactly
when the row no longer carries the instant it scanned. -/
theorem charged_iff_moved {pid : ι} {r : RenewalReply P T Role (.expireSubscription id now)}
    (hstep : (renewalSystem batchSize).step c (.perform pid ⟨.expireSubscription id now, r⟩) =
      some c') :
    ∃ proc dueAt, c.procs pid = some proc ∧ period proc.hist = some (id, dueAt) ∧
      (Charged c.log id dueAt ↔
        (c.shared.subscriptions.get id).map (·.nextRenewalAt) ≠ some dueAt) := by
  obtain ⟨_, _, ⟨⟩, _⟩ | ⟨_, _, _, _, _, _, _, ⟨⟩, hproc, _⟩ | ⟨_, ⟨⟩, _⟩ | ⟨_, _, ⟨⟩, _⟩ :=
    System.step_cases hstep
  have hinv := renewalInv_of_reaches hreach
  have hfollows := System.follows_of_reaches (fun job => wp_renewalBody job ⟨[], none⟩) hreach
  obtain ⟨dueAt, hperiod, hmem⟩ := (hfollows.procs pid _ hproc).1
  rw [ghost_period] at hperiod
  refine ⟨_, dueAt, hproc, hperiod, ?_, ?_⟩
  · intro hcharged hcarries
    obtain ⟨sub, hsub, hlt⟩ := hinv.remembers.charged id dueAt hcharged
    rw [hsub, map_some, some.injEq] at hcarries
    omega
  · intro hmoved
    obtain ⟨sub, hsub, hsame | hcharged⟩ := hinv.scanned pid _ hproc (id, dueAt) hmem
    · rw [hsub, map_some, hsame] at hmoved
      exact absurd rfl hmoved
    · exact hcharged

end

/-- An expiry is taken while the row still carries the scanned instant. -/
def expiresAsScanned (c : RenewalConfig ι P T Role) :
    Label ι (RenewalCall P T Role) (RenewalReply P T Role) (RenewalJob P)
      (RenewalMove P T Role) → Bool
  | .perform pid ⟨.expireSubscription id _, _⟩ =>
    match c.procs pid with
    | some proc =>
      period proc.hist =
        (c.shared.subscriptions.get id).map fun sub => (id, sub.nextRenewalAt)
    | none => true
  | _ => true

structure RenewalsSound (log : List (RenewalRecord ι P T Role)) : Prop where
  once : ChargedOnce log
  cancelled : NotChargedAfter .cancelled log
  expired : ExpiredUncharged log

theorem expiredUncharged_step
    (hfollows : System.Follows renewalProtocol (fun _ => True) (fun _ => ⟨[], none⟩) c)
    (hinv : RenewalInv c) (hguard : expiresAsScanned c l) (hexpired : ExpiredUncharged c.log)
    (hstep : (renewalSystem batchSize).step c l = some c') : ExpiredUncharged c'.log := by
  obtain ⟨pid, arg, _, _, rfl⟩ | ⟨pid, arg, hist, e, k, r, s, rfl, hproc, _, rfl⟩ |
    ⟨pid, _, rfl⟩ | ⟨move, s, _, _, rfl⟩ := System.step_cases hstep
  · exact hexpired
  · apply hexpired.append
    intro id heffect
    obtain ⟨now, rfl⟩ := eq_expireSubscription heffect
    obtain ⟨dueAt, hperiod, _⟩ := (hfollows.procs pid _ hproc).1
    rw [ghost_period] at hperiod
    refine ⟨dueAt, hperiod, fun hcharged => ?_⟩
    obtain ⟨sub, hsub, hlt⟩ := hinv.remembers.charged id dueAt hcharged
    simp only [expiresAsScanned, hproc, hperiod, hsub, map_some, decide_eq_true_eq,
      some.injEq, Prod.mk.injEq] at hguard
    omega
  · exact hexpired
  · exact hexpired

/-- In every run whose expiries are all taken while the row carries the scanned instant, every
due period is charged at most once, nothing is charged after a cancellation, and nothing is
expired that has been charged. -/
theorem renewalsSound_of_reaches
    (hreach : (renewalSystem batchSize).Reaches expiresAsScanned (start db₀) c) :
    RenewalsSound c.log := by
  have hinv := renewalInv_of_reaches hreach
  refine ⟨hinv.once, hinv.after .cancelled, ?_⟩
  have hboth : RenewalInv c ∧ ExpiredUncharged c.log := by
    apply System.invariant_of_reaches (fun job => wp_renewalBody job ⟨[], none⟩) _ _ hreach
    · refine ⟨renewalInv_start db₀, ?_, List.Pairwise.nil⟩
      intro rec hrec
      cases hrec
    · intro c l c' hfollows hguard hinv hstep
      exact ⟨renewalInv_step hfollows hinv.1 hstep,
        expiredUncharged_step hfollows hinv.1 hguard hinv.2 hstep⟩
  exact hboth.2

/-! Two subscriptions are due; the second player cannot pay. -/

def sampleSubscription (playerId : Nat) : Subscription Nat Nat where
  playerId := playerId
  tierId := 1
  status := .active
  renewsEveryDays := 30
  priceBonuses := 100
  nextRenewalAt := 1000
  cancelledAt := none
  renewsEveryDays_pos := by decide

def sampleRenewalDb (balance : Int) : RenewalDb Nat Nat Nat where
  subscriptions := JsMap.ofEntries [("s1", sampleSubscription 1), ("s2", sampleSubscription 2)]
  players := fun p => some ⟨if p = 1 then balance else 10, none, none⟩
  canonicalName := fun _ => "player"
  tiers := fun _ => some ⟨"VIP", 7⟩
  roles := fun _ => some ⟨false, false⟩
  ledger := []
  servers := 2

def sampleDue (id : String) (playerId : Nat) : DueSubscription Nat Nat Nat where
  id := id
  playerId := playerId
  playerName := "player"
  tierId := 1
  tierName := "VIP"
  roleId := 7
  priceBonuses := 100
  renewsEveryDays := 30
  nextRenewalAt := 1000
  renewsEveryDays_pos := by decide

abbrev RenewalLabel : Type :=
  Label Nat (RenewalCall Nat Nat Nat) (RenewalReply Nat Nat Nat) (RenewalJob Nat)
    (RenewalMove Nat Nat Nat)

/-- Two passes scan the same rows. -/
def sampleScans : List RenewalLabel :=
  [.spawn 0 (.tick 2000), .spawn 1 (.tick 2000),
    .perform 0 ⟨.findDueSubscriptions 2000, .value [sampleDue "s1" 1, sampleDue "s2" 2]⟩,
    .perform 1 ⟨.findDueSubscriptions 2000, .value [sampleDue "s1" 1, sampleDue "s2" 2]⟩]

/-- The first pass takes the balance, so the second finds it short and ends the subscription
that has just been paid for. -/
def sampleOverlap : List RenewalLabel :=
  sampleScans ++
    [.perform 0 ⟨.chargeRenewal (chargeInput 2000 (sampleDue "s1" 1)), .value (.ok 0 2592002000 2)⟩,
      .perform 1 ⟨.chargeRenewal (chargeInput 2000 (sampleDue "s1" 1)),
        .value (.insufficientBalance 0)⟩,
      .perform 1 ⟨.expireSubscription "s1" 2000, .value true⟩]

theorem charged_iff_moved_overlap : ∃ c : RenewalConfig Nat Nat Nat Nat, ∃ dueAt,
      (renewalSystem 500).Reaches System.anyMove (start (sampleRenewalDb 100)) c ∧
        (Charged c.log "s1" dueAt ↔
          (c.shared.subscriptions.get "s1").map (·.nextRenewalAt) ≠ some dueAt) := by
  have hrun : ((renewalSystem 500).run System.anyMove (start (sampleRenewalDb 100))
      sampleOverlap.dropLast).map (fun c => ((renewalSystem 500).step c
        (.perform 1 ⟨.expireSubscription "s1" 2000, .value true⟩)).isSome) = some true := by
    decide +kernel
  obtain ⟨c, hreach, hsome⟩ := Machine.reaches_of_map_run hrun
  obtain ⟨c', hstep⟩ := isSome_iff_exists.1 hsome
  obtain ⟨_, dueAt, _, _, hiff⟩ := charged_iff_moved hreach hstep
  exact ⟨c, dueAt, hreach, hiff⟩

/-- What a record of the log shows. -/
def shown (rec : RenewalRecord Nat Nat Nat Nat) : Option RenewalEffect × Option (String × Int) :=
  (effect rec.event, period rec.hist)

theorem not_renewalsSound_sampleOverlap : ∃ c : RenewalConfig Nat Nat Nat Nat,
      (renewalSystem 500).Reaches System.anyMove (start (sampleRenewalDb 100)) c ∧
        ¬ RenewalsSound c.log := by
  have hrun : ((renewalSystem 500).run System.anyMove (start (sampleRenewalDb 100))
      sampleOverlap).map (fun c => c.log.map shown) =
        some [(none, none), (none, none), (some (.charged "s1" 1000 2592001000), none),
          (none, none), (some (.ended "s1" .expired), some ("s1", 1000))] := by
    decide +kernel
  obtain ⟨c, hc, hlog⟩ := Machine.reaches_of_map_run hrun
  refine ⟨c, hc, fun hsound => ?_⟩
  have hpairs : (c.log.map shown).Pairwise fun earlier later => ∀ id dueAt next,
      later.1 = some (.ended id .expired) → later.2 = some (id, dueAt) →
        earlier.1 ≠ some (.charged id dueAt next) :=
    pairwise_map.2 hsound.expired.uncharged
  rw [hlog] at hpairs
  have hcharge := (pairwise_cons.1 (pairwise_cons.1 (pairwise_cons.1 hpairs).2).2).1
  exact hcharge (some (.ended "s1" .expired), some ("s1", 1000)) (by simp) "s1" 1000 2592001000
    rfl rfl rfl

/-- With enough balance the second pass loses the compare-and-set; the subscription that nobody
can pay for ends once, and a player cancels the other. -/
def sampleRenewals : List RenewalLabel :=
  sampleScans ++
    [.perform 0 ⟨.chargeRenewal (chargeInput 2000 (sampleDue "s1" 1)),
        .value (.ok 150 2592002000 2)⟩,
      .perform 1 ⟨.chargeRenewal (chargeInput 2000 (sampleDue "s1" 1)), .value .notActive⟩,
      .perform 0 ⟨.chargeRenewal (chargeInput 2000 (sampleDue "s2" 2)),
        .value (.insufficientBalance 10)⟩,
      .perform 1 ⟨.chargeRenewal (chargeInput 2000 (sampleDue "s2" 2)),
        .value (.insufficientBalance 10)⟩,
      .perform 0 ⟨.expireSubscription "s2" 2000, .value true⟩,
      .perform 1 ⟨.expireSubscription "s2" 2000, .value false⟩,
      .spawn 2 (.cancel "s1" 1 3000),
      .perform 2 ⟨.cancelSubscription "s1" 1 3000, .value true⟩]

theorem renewalsSound_sampleRenewals : ∃ c : RenewalConfig Nat Nat Nat Nat,
      (renewalSystem 500).Reaches expiresAsScanned (start (sampleRenewalDb 250)) c ∧
      c.log.filterMap (fun rec => effect rec.event) =
        [.charged "s1" 1000 2592001000, .ended "s2" .expired, .ended "s1" .cancelled] ∧
      RenewalsSound c.log := by
  have hrun : ((renewalSystem 500).run expiresAsScanned (start (sampleRenewalDb 250))
      sampleRenewals).map (fun c => c.log.filterMap fun rec => effect rec.event) =
        some [.charged "s1" 1000 2592001000, .ended "s2" .expired, .ended "s1" .cancelled] := by
    decide +kernel
  obtain ⟨c, hreach, hlog⟩ := Machine.reaches_of_map_run hrun
  exact ⟨c, hreach, hlog, renewalsSound_of_reaches hreach⟩

end Runs

end SquadPanel.Economy
