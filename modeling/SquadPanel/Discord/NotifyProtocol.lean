import SquadPanel.Discord.Notify

/-!
# What a delivery may do

The books of a delivery say what its own calls show: the keys it found or wrote, the key it
looked up last and did not find, the webhooks it read and the last count of failed attempts.
The protocol ties each post, each counted failure and each acknowledgement to the books.
-/

namespace SquadPanel.Discord

open Js Lib Streams Prog List

/-! ## The protocol -/

structure NotifyBooks where
  entry : Delivered
  found : List OnceKey
  written : List OnceKey
  /-- the key of the last lookup, if it was not there and nothing was written since -/
  absent : Option OnceKey
  table : Option WebhookTable
  attempts : Nat

def NotifyBooks.start (entry : Delivered) : NotifyBooks := ⟨entry, [], [], none, none, 0⟩

/-- The key is known to be stored. -/
def NotifyBooks.Stored (g : NotifyBooks) (key : OnceKey) : Prop :=
  key ∈ g.found ∨ key ∈ g.written

def notifyNext : (call : NotifyCall) → NotifyReply call → NotifyBooks → NotifyBooks
  | .get key, .value true, g => { g with found := key :: g.found, absent := none }
  | .get key, .value false, g => { g with absent := some key }
  | .get _, .failed _, g => { g with absent := none }
  | .set key, .value _, g => { g with written := key :: g.written, absent := none }
  | .set _, .failed _, g => { g with absent := none }
  | .incr _, .value count, g => { g with attempts := count }
  | .selectWebhooks, .value table, g => { g with table := some table }
  | _, _, g => g

/-- The webhooks that subscribe to the event of the entry, as they were read. -/
def NotifyBooks.Subscribed (g : NotifyBooks) (envelope : Envelope) (rows : List Webhook) : Prop :=
  ∃ discordType table, mapEventToDiscordType envelope.type = some discordType ∧
    g.table = some table ∧ rows = candidates discordType envelope table.rows

section Protocol

variable (deps : NotifyDeps)

/-- What the books must show for an acknowledgement. -/
inductive NotifyBooks.Settled (g : NotifyBooks) : Prop
  | malformed (hparse : parseStreamEnvelope deps.decode g.entry.fields = none)
  | unmapped (envelope : Envelope)
      (hparse : parseStreamEnvelope deps.decode g.entry.fields = some envelope)
      (hunmapped : mapEventToDiscordType envelope.type = none)
  | deduplicated (envelope : Envelope)
      (hparse : parseStreamEnvelope deps.decode g.entry.fields = some envelope)
      (hfound : .event envelope.eventId ∈ g.found)
  | delivered (envelope : Envelope) (rows : List Webhook)
      (hparse : parseStreamEnvelope deps.decode g.entry.fields = some envelope)
      (hsubscribed : g.Subscribed envelope rows)
      (hstored : ∀ row ∈ rows, g.Stored (.mark envelope.eventId row.id))
  | exhausted (envelope : Envelope)
      (hparse : parseStreamEnvelope deps.decode g.entry.fields = some envelope)
      (hattempts : MAX_DELIVERY_ATTEMPTS ≤ g.attempts)

/-- The delivery of the event has left a subscribed webhook without a mark. -/
def NotifyBooks.Failed (g : NotifyBooks) (eventId : JsString) : Prop :=
  ∃ envelope rows, parseStreamEnvelope deps.decode g.entry.fields = some envelope ∧
    envelope.eventId = eventId ∧ g.Subscribed envelope rows ∧
    ∃ row ∈ rows, ¬ g.Stored (.mark eventId row.id)

def notifyPre : NotifyCall → NotifyBooks → Prop
  | .incr eventId, g => g.Failed deps eventId
  | .xack stream id, g => g.entry.stream = stream ∧ g.entry.id = id ∧ g.Settled deps
  | .fetch eventId webhookId _, g => g.absent = some (.mark eventId webhookId)
  | _, _ => True

def notifyProtocol : Protocol NotifyCall NotifyReply NotifyBooks where
  pre := notifyPre deps
  next := notifyNext

end Protocol

variable {deps : NotifyDeps}

/-! ## The sender keeps to the protocol -/

/-- Posting to a webhook whose mark was looked up and not found leaves the books as they are,
and returns. -/
def Posts (deps : NotifyDeps) (eventId webhookId : JsString) (p : NotifyM PostOutcome) : Prop :=
  ∀ g : NotifyBooks, g.absent = some (.mark eventId webhookId) →
    Wp (notifyProtocol deps) p.run (fun r g' => g' = g ∧ ∃ outcome, r = .ok outcome) g

theorem posts_pure (eventId webhookId : JsString) (outcome : PostOutcome) :
    Posts deps eventId webhookId (pure outcome) :=
  fun _ _ => ⟨rfl, outcome, rfl⟩

variable {eventId webhookId url : JsString}

/-- One request, and what is done with its response. -/
theorem posts_fetch {f : Response → NotifyM PostOutcome}
    (hrest : ∀ response, Posts deps eventId webhookId (f response)) :
    Posts deps eventId webhookId (fetchImpl eventId webhookId url >>= f) := by
  intro g habsent
  exact ⟨habsent, fun response => hrest response g habsent⟩

theorem posts_postUntilCounted {again : Nat → Bool → NotifyM PostOutcome}
    (hagain : ∀ retries limited, Posts deps eventId webhookId (again retries limited))
    (retries : Nat) (limited : Bool) : Posts deps eventId webhookId
      (postUntilCounted eventId webhookId url again retries limited) := by
  induction retries generalizing limited with
  | zero =>
    unfold postUntilCounted
    apply posts_fetch
    rintro (_ | ⟨code, wait⟩)
    · exact hagain 0 limited
    · dsimp only
      repeat' split
      all_goals first | exact hagain _ _ | exact posts_pure _ _ _
  | succ retries ih =>
    unfold postUntilCounted
    apply posts_fetch
    rintro (_ | ⟨code, wait⟩)
    · exact hagain (retries + 1) limited
    · dsimp only
      repeat' split
      all_goals first | exact ih _ | exact hagain _ _ | exact posts_pure _ _ _

variable (eventId webhookId url : JsString)

theorem posts_postAttempts (sends retries : Nat) (limited : Bool) : Posts deps eventId webhookId
      (postAttempts eventId webhookId url sends retries limited) := by
  induction sends generalizing retries limited with
  | zero => exact posts_pure _ _ _
  | succ sends ih => exact posts_postUntilCounted ih retries limited

theorem posts_postWebhook : Posts deps eventId webhookId (postWebhook eventId webhookId url) :=
  posts_postAttempts eventId webhookId url _ _ _

/-- What the loop body does to the counters and the books: the mark of the webhook is now known
to be stored, or one more failure is counted. -/
structure Visited (eventId : JsString) (row : Webhook) (result result' : DeliveryResult)
    (g g' : NotifyBooks) : Prop where
  entry : g'.entry = g.entry
  table : g'.table = g.table
  outcome :
    (result'.failed = result.failed ∧
      ∀ key, g'.Stored key ↔ key = .mark eventId row.id ∨ g.Stored key) ∨
    (result'.failed = result.failed + 1 ∧ ∀ key, g'.Stored key ↔ g.Stored key)

section
variable (eventId : JsString) (row : Webhook) (result : DeliveryResult)

theorem wp_recordOutcome (outcome : PostOutcome) (g : NotifyBooks) :
    Wp (notifyProtocol deps) (recordOutcome eventId row.id result outcome).run
      (fun r g' => ∃ result', r = .ok result' ∧ Visited eventId row result result' g g') g := by
  unfold recordOutcome
  dsimp only
  split
  · rw [wp_run_tryCatch, wp_run_bind]
    refine ⟨trivial, ?_⟩
    rintro (⟨⟨⟩⟩ | done)
    · refine ⟨_, rfl, rfl, rfl, .inl ⟨rfl, fun key => ?_⟩⟩
      simp only [NotifyBooks.Stored, notifyProtocol, notifyNext, mem_cons]
      tauto
    · exact ⟨_, rfl, rfl, rfl, .inr ⟨rfl, fun key => Iff.rfl⟩⟩
  · exact ⟨_, rfl, rfl, rfl, .inr ⟨rfl, fun key => Iff.rfl⟩⟩

theorem wp_deliverTo (g : NotifyBooks) :
    Wp (notifyProtocol deps) (deliverTo deps eventId row result).run
      (fun r g' => ∃ result', r = .ok result' ∧ Visited eventId row result result' g g') g := by
  unfold deliverTo
  refine ⟨trivial, ?_⟩
  rintro (⟨_ | _⟩ | done)
  · split
    · exact ⟨_, rfl, rfl, rfl, .inr ⟨rfl, fun key => Iff.rfl⟩⟩
    · next url _ =>
      show Wp _ (postWebhook eventId row.id url >>= _).run _ _
      rw [wp_run_bind]
      refine wp_mono ?_ (posts_postWebhook eventId row.id url _ rfl)
      rintro _ g' ⟨rfl, outcome, rfl⟩
      refine wp_mono ?_ (wp_recordOutcome eventId row result outcome _)
      rintro r g' ⟨result', rfl, hvisited⟩
      exact ⟨result', rfl, hvisited.entry, hvisited.table, hvisited.outcome⟩
  · refine ⟨_, rfl, rfl, rfl, .inl ⟨rfl, fun key => ?_⟩⟩
    simp only [NotifyBooks.Stored, notifyProtocol, notifyNext, mem_cons]
    tauto
  · exact ⟨_, rfl, rfl, rfl, .inr ⟨rfl, fun key => Iff.rfl⟩⟩

end

/-- What the loop does, webhook by webhook. -/
inductive Round (eventId : JsString) :
    List Webhook → DeliveryResult → DeliveryResult → NotifyBooks → NotifyBooks → Prop
  | nil (result : DeliveryResult) (g : NotifyBooks) : Round eventId [] result result g g
  | cons {row : Webhook} {rows : List Webhook} {result result' result'' : DeliveryResult}
      {g g' g'' : NotifyBooks} (hvisited : Visited eventId row result result' g g')
      (hround : Round eventId rows result' result'' g' g'') :
      Round eventId (row :: rows) result result'' g g''

theorem wp_deliverToAll (eventId : JsString) (rows : List Webhook) (result : DeliveryResult)
    (g : NotifyBooks) : Wp (notifyProtocol deps) (deliverToAll deps eventId rows result).run
      (fun r g' => ∃ result', r = .ok result' ∧ Round eventId rows result result' g g') g := by
  induction rows generalizing result g with
  | nil => exact ⟨result, rfl, .nil result g⟩
  | cons row rows ih =>
    unfold deliverToAll
    rw [wp_run_bind]
    refine wp_mono ?_ (wp_deliverTo eventId row result g)
    rintro _ g' ⟨result', rfl, hvisited⟩
    refine wp_mono ?_ (ih result' g')
    rintro _ g'' ⟨result'', rfl, hround⟩
    exact ⟨result'', rfl, .cons hvisited hround⟩

section Rounds

variable {eventId : JsString} {row : Webhook} {rows : List Webhook}
  {result result' : DeliveryResult} {g g' : NotifyBooks}

section
variable (hvisited : Visited eventId row result result' g g')
include hvisited

theorem Visited.failed_le : result.failed ≤ result'.failed := by
  rcases hvisited.outcome with ⟨hsame, -⟩ | ⟨hmore, -⟩
  · exact Nat.le_of_eq hsame.symm
  · omega

theorem Visited.stored_iff_of_ne {key : OnceKey} (hne : key ≠ .mark eventId row.id) :
    g'.Stored key ↔ g.Stored key := by
  rcases hvisited.outcome with ⟨-, hstored⟩ | ⟨-, hstored⟩
  · rw [hstored key, or_iff_right hne]
  · exact hstored key

theorem Visited.stored_mono {key : OnceKey} (hkey : g.Stored key) : g'.Stored key := by
  rcases hvisited.outcome with ⟨-, hstored⟩ | ⟨-, hstored⟩
  · exact (hstored key).mpr (.inr hkey)
  · exact (hstored key).mpr hkey

end

section
variable (hround : Round eventId rows result result' g g')
include hround

theorem Round.entry_eq : g'.entry = g.entry := by
  induction hround with
  | nil => rfl
  | cons hvisited _ ih => rw [ih, hvisited.entry]

theorem Round.table_eq : g'.table = g.table := by
  induction hround with
  | nil => rfl
  | cons hvisited _ ih => rw [ih, hvisited.table]

theorem Round.failed_le : result.failed ≤ result'.failed := by
  induction hround with
  | nil => exact Nat.le_refl _
  | cons hvisited _ ih => exact Nat.le_trans hvisited.failed_le ih

theorem Round.stored_mono {key : OnceKey} (hkey : g.Stored key) : g'.Stored key := by
  induction hround with
  | nil => exact hkey
  | cons hvisited _ ih => exact ih (hvisited.stored_mono hkey)

theorem Round.stored_iff_of_ne {key : OnceKey} (hne : ∀ row ∈ rows, key ≠ .mark eventId row.id) :
    g'.Stored key ↔ g.Stored key := by
  induction hround with
  | nil => rfl
  | cons hvisited _ ih =>
    rw [ih fun row hrow => hne row (mem_cons_of_mem _ hrow),
      hvisited.stored_iff_of_ne (hne _ mem_cons_self)]

/-- A round without a failure leaves every webhook marked. -/
theorem Round.stored_of_not_failed (hfailed : result'.failed = result.failed) :
    ∀ row ∈ rows, g'.Stored (.mark eventId row.id) := by
  induction hround with
  | nil => simp
  | cons hvisited hround ih =>
    have hle := hvisited.failed_le
    have hle' := hround.failed_le
    rw [forall_mem_cons]
    refine ⟨?_, ih (by omega)⟩
    rcases hvisited.outcome with ⟨-, hstored⟩ | ⟨hmore, -⟩
    · exact hround.stored_mono ((hstored _).mpr (.inl rfl))
    · omega

/-- A round with a failure leaves a webhook without a known mark, if there was no known mark
before it. -/
theorem Round.not_stored_of_failed (hdistinct : (rows.map Webhook.id).Nodup)
    (hnew : ∀ row ∈ rows, ¬ g.Stored (.mark eventId row.id))
    (hfailed : result.failed < result'.failed) :
    ∃ row ∈ rows, ¬ g'.Stored (.mark eventId row.id) := by
  induction hround with
  | nil => omega
  | @cons row rows result result' result'' g g' g'' hvisited hround ih =>
    rw [map_cons, nodup_cons] at hdistinct
    have hother : ∀ other ∈ rows,
        OnceKey.mark eventId row.id ≠ .mark eventId other.id := by
      intro other hother heq
      have hid : row.id = other.id := by injection heq
      exact hdistinct.1 (hid ▸ mem_map_of_mem hother)
    rcases hvisited.outcome with ⟨hsame, -⟩ | ⟨-, hstored⟩
    · have hrest : ∀ other ∈ rows, ¬ g'.Stored (.mark eventId other.id) := by
        intro other hmem
        rw [hvisited.stored_iff_of_ne (hother other hmem).symm]
        exact hnew other (mem_cons_of_mem _ hmem)
      obtain ⟨other, hmem, hmissed⟩ := ih hdistinct.2 hrest (by omega)
      exact ⟨other, mem_cons_of_mem _ hmem, hmissed⟩
    · refine ⟨row, mem_cons_self, ?_⟩
      rw [hround.stored_iff_of_ne hother, hstored]
      exact hnew row mem_cons_self

end

end Rounds

/-- What a returned delivery says of the books. -/
structure DeliveryShown (envelope : Envelope) (result : DeliveryResult)
    (g g' : NotifyBooks) : Prop where
  entry : g'.entry = g.entry
  subscribed : ∃ rows, g'.Subscribed envelope rows ∧
    (result.failed = 0 → ∀ row ∈ rows, g'.Stored (.mark envelope.eventId row.id)) ∧
    (0 < result.failed → ∃ row ∈ rows, ¬ g'.Stored (.mark envelope.eventId row.id))

theorem wp_deliverEnvelope {envelope : Envelope} {discordType : JsString}
    (hmapped : mapEventToDiscordType envelope.type = some discordType) (g : NotifyBooks)
    (hnew : ∀ key, ¬ g.Stored key) : Wp (notifyProtocol deps) (deliverEnvelope deps envelope).run
      (fun r g' => ∀ result, r = .ok result → DeliveryShown envelope result g g') g := by
  unfold deliverEnvelope
  rw [hmapped]
  refine ⟨trivial, ?_⟩
  rintro (table | done)
  · have hdistinct : ((candidates discordType envelope table.rows).map Webhook.id).Nodup :=
      table.distinct.sublist (filter_sublist.map _)
    dsimp only [Prog.bind, ExceptT.bindCont, Reply.toExcept]
    split
    · next hnone =>
      rintro result ⟨⟩
      refine ⟨rfl, [], ⟨discordType, table, hmapped, rfl, hnone.symm⟩, ?_, ?_⟩
      · simp
      · rintro ⟨⟩
    · next row rows hsome =>
      rw [hsome] at hdistinct
      refine ⟨trivial, ?_⟩
      rintro (⟨_ | _⟩ | done)
      · rintro result ⟨⟩
        refine ⟨rfl, row :: rows, ⟨discordType, table, hmapped, rfl, hsome.symm⟩, ?_, ?_⟩
        · rintro ⟨⟩
        · exact fun _ => ⟨row, mem_cons_self, hnew _⟩
      · show Wp _ (deliverToAll deps envelope.eventId (row :: rows) .zero).run _ _
        refine wp_mono ?_ (wp_deliverToAll envelope.eventId (row :: rows) .zero _)
        rintro _ g' ⟨result, rfl, hround⟩ _ ⟨⟩
        refine ⟨hround.entry_eq, row :: rows,
          ⟨discordType, table, hmapped, hround.table_eq, hsome.symm⟩, ?_, ?_⟩
        · exact hround.stored_of_not_failed
        · exact hround.not_stored_of_failed hdistinct fun row _ => hnew _
      · rintro result ⟨⟩
  · rintro result ⟨⟩

/-! ## The consumer keeps to the protocol -/

section Consumer

variable {entry : Delivered} {envelope : Envelope} {g : NotifyBooks}

theorem wp_xack (hentry : g.entry = entry) (hsettled : g.Settled deps) :
    Wp (notifyProtocol deps) (xack entry).run (fun _ _ => True) g := by
  subst hentry
  exact ⟨⟨rfl, rfl, hsettled⟩, fun _ => trivial⟩

theorem NotifyBooks.Settled.of_set (hsettled : g.Settled deps) (key : OnceKey)
    (reply : Reply Unit) : (notifyNext (.set key) reply g).Settled deps := by
  have hstored : ∀ other, g.Stored other → (notifyNext (.set key) reply g).Stored other := by
    rintro other (hfound | hwritten)
    · cases reply with
      | value _ | failed _ => exact .inl hfound
    · cases reply with
      | value _ => exact .inr (mem_cons_of_mem _ hwritten)
      | failed _ => exact .inr hwritten
  have hsame : (notifyNext (.set key) reply g).entry = g.entry ∧
      (notifyNext (.set key) reply g).found = g.found ∧
      (notifyNext (.set key) reply g).table = g.table ∧
      (notifyNext (.set key) reply g).attempts = g.attempts := by
    cases reply <;> exact ⟨rfl, rfl, rfl, rfl⟩
  obtain ⟨hentry, hfound, htable, hcount⟩ := hsame
  cases hsettled with
  | malformed hparse => exact .malformed (by rw [hentry, hparse])
  | unmapped envelope hparse hunmapped =>
    exact .unmapped envelope (by rw [hentry, hparse]) hunmapped
  | deduplicated envelope hparse hmem =>
    exact .deduplicated envelope (by rw [hentry, hparse]) (by rw [hfound]; exact hmem)
  | delivered envelope rows hparse hsubscribed hmarks =>
    obtain ⟨discordType, table, hmapped, hselected, hrows⟩ := hsubscribed
    exact .delivered envelope rows (by rw [hentry, hparse])
      ⟨discordType, table, hmapped, by rw [htable, hselected], hrows⟩
      fun row hrow => hstored _ (hmarks row hrow)
  | exhausted envelope hparse hattempts =>
    exact .exhausted envelope (by rw [hentry, hparse]) (by rw [hcount]; exact hattempts)

theorem wp_finish (eventId : JsString) (hentry : g.entry = entry) (hsettled : g.Settled deps) :
    Wp (notifyProtocol deps) (finish entry eventId).run (fun _ _ => True) g := by
  unfold finish
  refine ⟨trivial, ?_⟩
  rintro (⟨⟨⟩⟩ | done)
  · show Wp _ (xack entry >>= _).run _ _
    rw [wp_run_bind]
    refine wp_mono ?_ (wp_xack hentry (hsettled.of_set _ (.value ())))
    rintro (e | a) g' -
    · trivial
    · exact ⟨trivial, fun _ => trivial⟩
  · trivial

/-- A delivery that failed is counted, and finished once it was counted often enough. -/
theorem wp_processEntry (entry : Delivered) :
    Wp (notifyProtocol deps) (processEntry deps entry).run (fun _ _ => True)
      (NotifyBooks.start entry) := by
  unfold processEntry
  split
  · next hparse => exact wp_xack rfl (.malformed hparse)
  · next envelope hparse =>
    split
    · next hunmapped => exact wp_xack rfl (.unmapped envelope hparse hunmapped)
    · next discordType hmapped =>
      refine ⟨trivial, ?_⟩
      rintro (⟨_ | _⟩ | done)
      · show Wp _ (deliverEnvelope deps envelope >>= _).run _ _
        rw [wp_run_bind]
        refine wp_mono ?_ (wp_deliverEnvelope hmapped _ (by
          rintro key (⟨⟨⟩⟩ | ⟨⟨⟩⟩)))
        rintro (e | result) g hshown
        · trivial
        · obtain ⟨hentry, rows, hsubscribed, hall, hmissed⟩ := hshown result rfl
          replace hentry : g.entry = entry := hentry
          rw [← hentry] at hparse
          dsimp only
          split
          · next hfailed =>
            refine ⟨⟨envelope, rows, hparse, rfl, hsubscribed, hmissed hfailed⟩, ?_⟩
            rintro (attempts | done)
            · refine ⟨trivial, ?_⟩
              rintro (⟨⟨⟩⟩ | done)
              · show Wp _ (ExceptT.run (if attempts < MAX_DELIVERY_ATTEMPTS then _ else _)) _ _
                split
                · trivial
                · next hmany => exact wp_finish _ hentry (.exhausted envelope hparse (by
                    show MAX_DELIVERY_ATTEMPTS ≤ attempts
                    omega))
              · trivial
            · trivial
          · next hfailed =>
            exact wp_finish _ hentry (.delivered envelope rows hparse hsubscribed
              (hall (by omega)))
      · exact wp_xack rfl (.deduplicated envelope hparse mem_cons_self)
      · trivial

theorem wp_body (entry : Delivered) :
    ((notifySystem deps).body entry).Wp (notifyProtocol deps) (fun _ _ => True)
      (NotifyBooks.start entry) := by
  unfold notifySystem
  rw [wp_bind]
  exact wp_mono (fun _ _ _ => trivial) (wp_processEntry entry)

end Consumer

end SquadPanel.Discord
