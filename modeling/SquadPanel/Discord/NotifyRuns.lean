import SquadPanel.Discord.NotifyProtocol

/-!
# Runs of the notifier

With a single consumer the books of a delivery are true of the stored keys at every step, so
what the protocol asks of the books holds of Redis.
-/

namespace SquadPanel.Discord

open Js Lib Streams List Option

abbrev NotifyEvent := Event NotifyCall NotifyReply

abbrev NotifyRecord := Record Unit NotifyCall NotifyReply Delivered

/-- How often a failed delivery of the event was counted. -/
def failedAttempts (eventId : JsString) (log : List NotifyRecord) : Nat :=
  log.countP fun rec => decide (rec.event.call = .incr eventId)

theorem failedAttempts_append (eventId : JsString) (log : List NotifyRecord) (rec : NotifyRecord) :
    failedAttempts eventId (log ++ [rec]) =
      failedAttempts eventId log + if rec.event.call = .incr eventId then 1 else 0 := by
  simp [failedAttempts, countP_append, countP_cons]

/-! ## The books and the history -/

/-- The books of a process. -/
abbrev booksOf (deps : NotifyDeps) (entry : Delivered) (hist : List NotifyEvent) : NotifyBooks :=
  (notifyProtocol deps).ghost NotifyBooks.start entry hist

variable {deps : NotifyDeps} {call : NotifyCall} {reply : NotifyReply call} {g : NotifyBooks}
  {key : OnceKey} {table : WebhookTable} {entry : Delivered} {hist : List NotifyEvent}
  {s : NotifyState} {c : NotifyConfig} {c' : NotifyConfig}

theorem notifyNext_entry (call : NotifyCall) (reply : NotifyReply call) (g : NotifyBooks) :
    (notifyNext call reply g).entry = g.entry := by
  unfold notifyNext
  split <;> rfl

theorem stored_notifyNext (hstored : (notifyNext call reply g).Stored key) :
    g.Stored key ∨ (⟨call, reply⟩ : NotifyEvent) = ⟨.get key, Reply.value true⟩ ∨
      (⟨call, reply⟩ : NotifyEvent) = ⟨.set key, Reply.value ()⟩ := by
  unfold notifyNext at hstored
  split at hstored
  case h_1 found _ =>
    rcases hstored with hfound | hwritten
    · rcases mem_cons.mp hfound with rfl | hold
      · exact .inr (.inl rfl)
      · exact .inl (.inl hold)
    · exact .inl (.inr hwritten)
  case h_4 written _ _ =>
    rcases hstored with hfound | hwritten
    · exact .inl (.inl hfound)
    · rcases mem_cons.mp hwritten with rfl | hold
      · exact .inr (.inr rfl)
      · exact .inl (.inr hold)
  all_goals exact .inl hstored

/-- A key is known to be absent from the last lookup until the next write. -/
theorem absent_notifyNext (habsent : (notifyNext call reply g).absent = some key) :
    (⟨call, reply⟩ : NotifyEvent) = ⟨.get key, Reply.value false⟩ ∨
      (g.absent = some key ∧ ∀ other, call ≠ .set other) := by
  cases call with
  | get other =>
    rcases reply with ⟨_ | _⟩ | done
    · cases habsent
      exact .inl rfl
    · cases habsent
    · cases habsent
  | set other => cases reply <;> cases habsent
  | incr eventId | selectWebhooks => cases reply <;> exact .inr ⟨habsent, by rintro _ ⟨⟩⟩
  | expire _ | del _ | xack _ _ | resolve _ | fetch _ _ _ =>
    exact .inr ⟨habsent, by rintro _ ⟨⟩⟩

theorem attempts_notifyNext (call : NotifyCall) (reply : NotifyReply call) (g : NotifyBooks) :
    (notifyNext call reply g).attempts = g.attempts ∨
      ∃ eventId count, (⟨call, reply⟩ : NotifyEvent) = ⟨.incr eventId, Reply.value count⟩ ∧
        (notifyNext call reply g).attempts = count := by
  unfold notifyNext
  split
  case h_6 _ eventId count => exact .inr ⟨eventId, count, rfl, rfl⟩
  all_goals exact .inl rfl

@[simp] theorem booksOf_append (entry : Delivered) (hist : List NotifyEvent) (ev : NotifyEvent) :
    booksOf deps entry (hist ++ [ev]) = notifyNext ev.call ev.answer (booksOf deps entry hist) :=
  Protocol.ghost_append_singleton _ _ _ _ _

@[simp] theorem booksOf_entry (entry : Delivered) (hist : List NotifyEvent) :
    (booksOf deps entry hist).entry = entry :=
  foldlRecOn (motive := fun g : NotifyBooks => g.entry = entry) hist _ rfl fun _ hg _ _ =>
    (notifyNext_entry ..).trans hg

theorem mem_hist_of_found (hfound : key ∈ (booksOf deps entry hist).found) :
    (⟨.get key, Reply.value true⟩ : NotifyEvent) ∈ hist := by
  revert hfound
  refine foldlRecOn (motive := fun g : NotifyBooks => key ∈ g.found → _ ∈ hist) hist _ nofun ?_
  rintro g hg ⟨call, reply⟩ hev hfound
  dsimp only [notifyProtocol, notifyNext] at hfound
  split at hfound
  case h_1 =>
    rcases mem_cons.mp hfound with rfl | hold
    · exact hev
    · exact hg hold
  all_goals exact hg hfound

theorem mem_hist_of_table (htable : (booksOf deps entry hist).table = some table) :
    (⟨.selectWebhooks, Reply.value table⟩ : NotifyEvent) ∈ hist := by
  revert htable
  refine foldlRecOn (motive := fun g : NotifyBooks => g.table = _ → _ ∈ hist) hist _ nofun ?_
  rintro g hg ⟨call, reply⟩ hev htable
  dsimp only [notifyProtocol, notifyNext] at htable
  split at htable
  case h_7 =>
    cases htable
    exact hev
  all_goals exact hg htable

theorem NotifyBooks.Stored.notifyNext (hstored : g.Stored key) (call : NotifyCall)
    (reply : NotifyReply call) : (Discord.notifyNext call reply g).Stored key := by
  unfold Discord.notifyNext
  split
  case h_1 => exact hstored.imp (mem_cons_of_mem _) id
  case h_4 => exact hstored.imp id (mem_cons_of_mem _)
  all_goals exact hstored

/-- A lookup that finds a key, or a write of it, makes it known. -/
theorem stored_of_mem_hist (hmem : (⟨.get key, Reply.value true⟩ : NotifyEvent) ∈ hist ∨
      (⟨.set key, Reply.value ()⟩ : NotifyEvent) ∈ hist) :
    (booksOf deps entry hist).Stored key := by
  induction hist using List.reverseRecOn with
  | nil => simp at hmem
  | append_singleton hist ev ih =>
    simp only [mem_append, mem_singleton] at hmem
    rw [booksOf_append]
    rcases hmem with (hold | rfl) | hold | rfl
    · exact (ih (.inl hold)).notifyNext _ _
    · exact .inl mem_cons_self
    · exact (ih (.inr hold)).notifyNext _ _
    · exact .inr mem_cons_self

/-! ## The books and the stored keys -/

/-- The books are true: `s` is the state the run started in. -/
structure BooksTrue (deps : NotifyDeps) (s shared : NotifyState) (log : List NotifyRecord)
    (g : NotifyBooks) : Prop where
  stored : ∀ key, g.Stored key → key.text deps.group ∈ shared.keys
  absent : ∀ key, g.absent = some key → key.text deps.group ∉ shared.keys
  attempts : ∀ envelope, parseStreamEnvelope deps.decode g.entry.fields = some envelope →
    g.attempts ≤ s.attempts (deliveryAttemptsKey deps.group envelope.eventId) +
      failedAttempts envelope.eventId log

/-- The counters count failed deliveries. -/
def Counted (deps : NotifyDeps) (s shared : NotifyState) (log : List NotifyRecord) : Prop :=
  ∀ eventId, shared.attempts (deliveryAttemptsKey deps.group eventId) ≤
    s.attempts (deliveryAttemptsKey deps.group eventId) + failedAttempts eventId log

structure NotifyInv (deps : NotifyDeps) (s : NotifyState) (c : NotifyConfig) : Prop where
  counted : Counted deps s c.shared c.log
  books : ∀ p, c.procs () = some p → BooksTrue deps s c.shared c.log (booksOf deps p.arg p.hist)

section Perform

variable {s shared shared' : NotifyState} {log : List NotifyRecord} {rec : NotifyRecord}
variable {g : NotifyBooks}

/-- A counter that is not the one of `eventId` is left alone by a change of that one. -/
theorem setAttempts_attempts (shared : NotifyState) (group eventId other : JsString) (count : Nat) :
    (shared.setAttempts (deliveryAttemptsKey group eventId) count).attempts
        (deliveryAttemptsKey group other) =
      if other = eventId then count else shared.attempts (deliveryAttemptsKey group other) := by
  simp only [NotifyState.setAttempts, deliveryAttemptsKey, append_right_inj]

/-- What a call can do to the state. -/
inductive Effect (group : JsString) (shared : NotifyState) (call : NotifyCall) :
    NotifyState → Prop
  | none : Effect group shared call shared
  | set (key : OnceKey) (hcall : call = .set key) :
      Effect group shared call (shared.setKey (key.text group))
  | incr (eventId : JsString) (hcall : call = .incr eventId) :
      Effect group shared call (shared.setAttempts (deliveryAttemptsKey group eventId)
        (shared.attempts (deliveryAttemptsKey group eventId) + 1))
  | del (eventId : JsString) (hcall : call = .del eventId) :
      Effect group shared call (shared.setAttempts (deliveryAttemptsKey group eventId) 0)

variable {group : JsString} {call : NotifyCall}

theorem effect_applied {α : Type} (reply : Reply α) (heffect : Effect group shared call shared') :
    Effect group shared call (applied shared shared' reply) := by
  rcases reply with _ | ⟨_ | _⟩
  · exact heffect
  · exact .none
  · exact heffect

variable {reply : NotifyReply call}

theorem effect_of_perform (hperform : performNotify group call shared reply = some shared') :
    Effect group shared call shared' := by
  cases call with
  | get _ | selectWebhooks =>
    cases reply with
    | value found =>
      simp only [performNotify, ite_none_right_eq_some] at hperform
      cases hperform.2
      exact .none
    | failed done =>
      cases hperform
      exact .none
  | set key =>
    cases hperform
    exact effect_applied reply (.set key rfl)
  | incr eventId =>
    rcases reply with count | ⟨_ | _⟩
    · obtain ⟨rfl, ⟨⟩⟩ := ite_none_right_eq_some.1 hperform
      exact .incr eventId rfl
    · cases hperform
      exact .none
    · cases hperform
      exact .incr eventId rfl
  | del eventId =>
    cases hperform
    exact effect_applied reply (.del eventId rfl)
  | expire _ | xack _ _ | resolve _ | fetch _ _ _ =>
    cases hperform
    exact .none

theorem mem_keys_of_effect (heffect : Effect group shared call shared') {key : JsString}
    (hkey : key ∈ shared.keys) : key ∈ shared'.keys := by
  cases heffect with
  | set other _ => exact mem_cons_of_mem _ hkey
  | none | incr _ _ | del _ _ => exact hkey

theorem keys_of_effect (heffect : Effect group shared call shared') (hcall : ∀ key, call ≠ .set key)
    : shared'.keys = shared.keys := by
  cases heffect with
  | set other hset => exact absurd hset (hcall other)
  | none | incr _ _ | del _ _ => rfl

theorem counted_of_effect (hcounted : Counted deps s shared log) (hcall : rec.event.call = call)
    (heffect : Effect deps.group shared call shared') : Counted deps s shared' (log ++ [rec]) := by
  intro other
  have hold := hcounted other
  rw [failedAttempts_append, hcall]
  cases heffect with
  | none => omega
  | set key _ =>
    show shared.attempts _ ≤ _
    omega
  | incr eventId hincr =>
    rw [setAttempts_attempts, hincr]
    by_cases heq : other = eventId
    · subst heq
      rw [if_pos rfl, if_pos rfl]
      omega
    · rw [if_neg heq]
      omega
  | del eventId _ =>
    rw [setAttempts_attempts]
    split <;> omega

theorem booksTrue_perform (hbooks : BooksTrue deps s shared log g)
    (hcounted : Counted deps s shared log) (hpre : notifyPre deps call g)
    (hrec : rec.event.call = call)
    (hperform : performNotify deps.group call shared reply = some shared') :
    BooksTrue deps s shared' (log ++ [rec]) (notifyNext call reply g) := by
  have heffect := effect_of_perform hperform
  refine ⟨fun key hstored => ?_, fun key habsent => ?_, fun envelope hparse => ?_⟩
  · rcases stored_notifyNext hstored with hold | hget | hset
    · exact mem_keys_of_effect heffect (hbooks.stored key hold)
    · cases hget
      obtain ⟨hpresent, ⟨⟩⟩ := ite_none_right_eq_some.1 hperform
      exact of_decide_eq_true hpresent.symm
    · cases hset
      cases hperform
      exact mem_cons_self
  · rcases absent_notifyNext habsent with hget | ⟨hold, hcall⟩
    · cases hget
      obtain ⟨hpresent, ⟨⟩⟩ := ite_none_right_eq_some.1 hperform
      exact of_decide_eq_false hpresent.symm
    · rw [keys_of_effect heffect hcall]
      exact hbooks.absent key hold
  · rw [notifyNext_entry] at hparse
    rcases attempts_notifyNext call reply g with hold | ⟨eventId, count, hincr, hcount⟩
    · rw [hold]
      rw [failedAttempts_append]
      have hbound := hbooks.attempts envelope hparse
      omega
    · cases hincr
      -- only failed deliveries of the entry's own event are counted
      obtain ⟨envelope', rows, hparse', rfl, -⟩ := hpre
      obtain rfl : envelope = envelope' := by
        rw [hparse, some.injEq] at hparse'
        exact hparse'
      obtain ⟨rfl, ⟨⟩⟩ := ite_none_right_eq_some.1 hperform
      have hbound := counted_of_effect hcounted hrec heffect envelope.eventId
      rw [setAttempts_attempts, if_pos rfl] at hbound
      exact hbound

end Perform

/-! ## Whole runs -/

theorem booksTrue_start (deps : NotifyDeps) (s shared : NotifyState) (log : List NotifyRecord)
    (entry : Delivered) : BooksTrue deps s shared log (NotifyBooks.start entry) where
  stored := by rintro key (⟨⟨⟩⟩ | ⟨⟨⟩⟩)
  absent := by rintro key ⟨⟩
  attempts := fun _ _ => Nat.zero_le _

theorem notifyInv_step {l : Label Unit NotifyCall NotifyReply Delivered WebhookTable}
    (hfollows : System.Follows (notifyProtocol deps) (fun _ => True) NotifyBooks.start c)
    (hinv : NotifyInv deps s c) (hstep : (notifySystem deps).step c l = some c') :
    NotifyInv deps s c' := by
  obtain ⟨pid, entry, -, -, rfl⟩ | ⟨pid, entry, hist, call, k, reply, shared, -, hproc, hperform,
    rfl⟩ | ⟨pid, -, rfl⟩ | ⟨table, shared, -, henv, rfl⟩ := System.step_cases hstep
  · refine ⟨hinv.counted, fun p hp => ?_⟩
    obtain rfl : p = _ := (some.inj (by simpa using hp)).symm
    exact booksTrue_start deps s c.shared c.log entry
  · have hpre := (hfollows.procs pid _ hproc).1
    have hbooks := hinv.books _ hproc
    refine ⟨counted_of_effect hinv.counted rfl (effect_of_perform hperform), fun p hp => ?_⟩
    obtain rfl : p = _ := (some.inj (by simpa [System.answered] using hp)).symm
    rw [booksOf_append]
    exact booksTrue_perform hbooks hinv.counted hpre rfl hperform
  · refine ⟨hinv.counted, fun p hp => ?_⟩
    simp at hp
  · cases henv
    exact ⟨hinv.counted, fun p hp =>
      ⟨(hinv.books p hp).stored, (hinv.books p hp).absent, (hinv.books p hp).attempts⟩⟩

section
variable (hreach : (notifySystem deps).Reaches System.anyMove (Config.start s) c)
include hreach

theorem follows_of_reaches :
    System.Follows (notifyProtocol deps) (fun _ => True) NotifyBooks.start c :=
  System.follows_of_reaches wp_body hreach

theorem notifyInv_of_reaches : NotifyInv deps s c := by
  have hbody : ∀ entry, ((notifySystem deps).body entry).Wp (notifyProtocol deps)
      (fun _ _ => True) (NotifyBooks.start entry) := wp_body
  apply System.invariant_of_reaches hbody _ _ hreach
  · refine ⟨fun eventId => Nat.le_add_right _ _, fun p hp => ?_⟩
    cases hp
  · intro c l c' hfollows _ hinv hstep
    exact notifyInv_step hfollows hinv hstep

end

theorem mem_keys_of_reaches {key : JsString}
    (hreach : (notifySystem deps).Reaches System.anyMove c c') (hkey : key ∈ c.shared.keys) :
    key ∈ c'.shared.keys := by
  apply Machine.invariant_of_reaches _ _ hreach
  · exact hkey
  intro c l c' _ _ hkey hstep
  obtain ⟨pid, entry, -, -, rfl⟩ | ⟨pid, entry, hist, call, k, reply, shared, -, hproc, hperform,
    rfl⟩ | ⟨pid, -, rfl⟩ | ⟨table, shared, -, henv, rfl⟩ := System.step_cases hstep
  · exact hkey
  · exact mem_keys_of_effect (effect_of_perform hperform) hkey
  · exact hkey
  · cases henv
    exact hkey

theorem pre_of_step (hreach : (notifySystem deps).Reaches System.anyMove (Config.start s) c)
    (hstep : (notifySystem deps).step c (.perform () ⟨call, reply⟩) = some c') :
    ∃ p, c.procs () = some p ∧ notifyPre deps call (booksOf deps p.arg p.hist) := by
  obtain ⟨_, _, ⟨⟩, -⟩ | ⟨_, entry, hist, _, k, _, shared, ⟨⟩, hproc, -, -⟩ | ⟨_, ⟨⟩, -⟩ |
    ⟨_, _, ⟨⟩, -⟩ := System.step_cases hstep
  exact ⟨_, hproc, ((follows_of_reaches hreach).procs () _ hproc).1⟩

/-- The reasons for which the delivery of an entry may acknowledge it.  The run started in
`s`. -/
inductive MayAcknowledge (deps : NotifyDeps) (s : NotifyState) (c : NotifyConfig)
    (entry : Delivered) (hist : List NotifyEvent) : Prop
  | malformed (hparse : parseStreamEnvelope deps.decode entry.fields = none)
  | unmapped (envelope : Envelope)
      (hparse : parseStreamEnvelope deps.decode entry.fields = some envelope)
      (hunmapped : mapEventToDiscordType envelope.type = none)
  /-- The delivery found the key of the event. -/
  | deduplicated (envelope : Envelope)
      (hparse : parseStreamEnvelope deps.decode entry.fields = some envelope)
      (hfound : (⟨.get (.event envelope.eventId), Reply.value true⟩ : NotifyEvent) ∈ hist)
  /-- All webhooks that the delivery found subscribed have their mark stored. -/
  | delivered (envelope : Envelope) (discordType : JsString) (table : WebhookTable)
      (hparse : parseStreamEnvelope deps.decode entry.fields = some envelope)
      (hmapped : mapEventToDiscordType envelope.type = some discordType)
      (hselected : (⟨.selectWebhooks, Reply.value table⟩ : NotifyEvent) ∈ hist)
      (hmarks : ∀ row ∈ candidates discordType envelope table.rows,
        (OnceKey.mark envelope.eventId row.id).text deps.group ∈ c.shared.keys)
  | exhausted (envelope : Envelope)
      (hparse : parseStreamEnvelope deps.decode entry.fields = some envelope)
      (hattempts : MAX_DELIVERY_ATTEMPTS ≤
        s.attempts (deliveryAttemptsKey deps.group envelope.eventId) +
          failedAttempts envelope.eventId c.log)

/-- The delivery left a webhook that it found subscribed without a mark. -/
def FailedDelivery (deps : NotifyDeps) (entry : Delivered) (hist : List NotifyEvent)
    (eventId : JsString) : Prop :=
  ∃ envelope discordType table, parseStreamEnvelope deps.decode entry.fields = some envelope ∧
    envelope.eventId = eventId ∧ mapEventToDiscordType envelope.type = some discordType ∧
    (⟨.selectWebhooks, Reply.value table⟩ : NotifyEvent) ∈ hist ∧
    ∃ row ∈ candidates discordType envelope table.rows,
      (⟨.get (.mark eventId row.id), Reply.value true⟩ : NotifyEvent) ∉ hist ∧
      (⟨.set (.mark eventId row.id), Reply.value ()⟩ : NotifyEvent) ∉ hist

theorem mayAcknowledge_of_settled (hsettled : (booksOf deps entry hist).Settled deps)
    (hbooks : BooksTrue deps s c.shared c.log (booksOf deps entry hist)) :
    MayAcknowledge deps s c entry hist := by
  cases hsettled with
  | malformed hparse => exact .malformed (by simpa using hparse)
  | unmapped envelope hparse hunmapped =>
    exact .unmapped envelope (by simpa using hparse) hunmapped
  | deduplicated envelope hparse hfound =>
    exact .deduplicated envelope (by simpa using hparse) (mem_hist_of_found hfound)
  | delivered envelope rows hparse hsubscribed hstored =>
    obtain ⟨discordType, table, hmapped, hselected, rfl⟩ := hsubscribed
    exact .delivered envelope discordType table (by simpa using hparse) hmapped
      (mem_hist_of_table hselected) fun row hrow => hbooks.stored _ (hstored row hrow)
  | exhausted envelope hparse hattempts =>
    exact .exhausted envelope (by simpa using hparse)
      (Nat.le_trans hattempts (hbooks.attempts envelope hparse))

theorem failedDelivery_of_failed {eventId : JsString}
    (hfailed : (booksOf deps entry hist).Failed deps eventId) :
    FailedDelivery deps entry hist eventId := by
  obtain ⟨envelope, rows, hparse, rfl, hsubscribed, row, hrow, hmissed⟩ := hfailed
  obtain ⟨discordType, table, hmapped, hselected, rfl⟩ := hsubscribed
  exact ⟨envelope, discordType, table, by simpa using hparse, rfl, hmapped,
    mem_hist_of_table hselected, row, hrow,
    fun hget => hmissed (stored_of_mem_hist (.inl hget)),
    fun hset => hmissed (stored_of_mem_hist (.inr hset))⟩

/-- In every run of one consumer, an entry is acknowledged only for one of the reasons above,
what is counted as a failed attempt is one, and a webhook whose mark is stored is never posted
to again. -/
theorem notifier_acknowledges_and_posts_once (deps : NotifyDeps) (s : NotifyState)
    (c : NotifyConfig) (hreach : (notifySystem deps).Reaches System.anyMove (Config.start s) c) :
    (∀ stream id reply c',
      (notifySystem deps).step c (.perform () ⟨.xack stream id, reply⟩) = some c' →
      ∃ p, c.procs () = some p ∧ p.arg.stream = stream ∧ p.arg.id = id ∧
        MayAcknowledge deps s c p.arg p.hist) ∧
    (∀ rec ∈ c.log, ∀ eventId, rec.event.call = .incr eventId →
      FailedDelivery deps rec.arg rec.hist eventId) ∧
    (∀ eventId webhookId, (OnceKey.mark eventId webhookId).text deps.group ∈ c.shared.keys →
      ∀ c', (notifySystem deps).Reaches System.anyMove c c' →
      ∀ url reply, (notifySystem deps).step c'
        (.perform () ⟨.fetch eventId webhookId url, reply⟩) = none) := by
  refine ⟨fun stream id reply c' hstep => ?_, fun rec hrec eventId hcall => ?_,
    fun eventId webhookId hmark c' hlater url reply => ?_⟩
  · obtain ⟨p, hproc, hstream, hid, hsettled⟩ := pre_of_step hreach hstep
    rw [booksOf_entry] at hstream hid
    exact ⟨p, hproc, hstream, hid,
      mayAcknowledge_of_settled hsettled ((notifyInv_of_reaches hreach).books p hproc)⟩
  · have hpre := (follows_of_reaches hreach).log rec hrec
    rw [hcall] at hpre
    exact failedDelivery_of_failed hpre
  · rw [eq_none_iff_forall_ne_some]
    intro c'' hstep
    have hreach' := hreach.trans hlater
    obtain ⟨p, hproc, habsent⟩ := pre_of_step hreach' hstep
    exact ((notifyInv_of_reaches hreach').books p hproc).absent _ habsent
      (mem_keys_of_reaches hlater hmark)

/-- Every entry is a ban, and urls are not encrypted. -/
def plainDeps : NotifyDeps where
  group := js "g"
  decode _ := some ⟨js "e", js "moderation.ban", none⟩
  decryptUrl := some

def sampleTable : WebhookTable := ⟨[⟨js "w", js "ban_issued", true, none, js "u"⟩], by decide⟩

def sampleState : NotifyState := ⟨[], fun _ => 0, sampleTable⟩

/-- A delivery to the only webhook, up to its acknowledgement. -/
def deliveredOnce : List (Label Unit NotifyCall NotifyReply Delivered WebhookTable) :=
  [.spawn () ⟨js "events:x", 1, [js "envelope", js "x"]⟩,
    .perform () ⟨.get (.event (js "e")), Reply.value false⟩,
    .perform () ⟨.selectWebhooks, Reply.value sampleTable⟩,
    .perform () ⟨.resolve (js "ban_issued"), Reply.value true⟩,
    .perform () ⟨.get (.mark (js "e") (js "w")), Reply.value false⟩,
    .perform () ⟨.fetch (js "e") (js "w") (js "u"), Response.networkError⟩,
    .perform () ⟨.fetch (js "e") (js "w") (js "u"), Response.status 204 0⟩,
    .perform () ⟨.set (.mark (js "e") (js "w")), Reply.value ()⟩,
    .perform () ⟨.set (.event (js "e")), Reply.value ()⟩]

theorem notifier_acknowledges_and_posts_once_sample :
    ∃ c, (notifySystem plainDeps).run System.anyMove (Config.start sampleState) deliveredOnce =
        some c ∧
      (∃ p, c.procs () = some p ∧ MayAcknowledge plainDeps sampleState c p.arg p.hist) ∧
      ∀ c', (notifySystem plainDeps).Reaches System.anyMove c c' →
      ∀ url reply, (notifySystem plainDeps).step c'
        (.perform () ⟨.fetch (js "e") (js "w") url, reply⟩) = none := by
  have hany : ((notifySystem plainDeps).run System.anyMove (Config.start sampleState)
      deliveredOnce).any (fun c =>
        decide ((OnceKey.mark (js "e") (js "w")).text (js "g") ∈ c.shared.keys) &&
        ((notifySystem plainDeps).step c
          (.perform () ⟨.xack (js "events:x") 1, Reply.value ()⟩)).isSome) = true := by
    decide +kernel
  obtain ⟨c, hrun, hc⟩ := (any_eq_true _ _).mp hany
  rw [Bool.and_eq_true, decide_eq_true_eq, isSome_iff_exists] at hc
  obtain ⟨hmark, c', hstep⟩ := hc
  have hreach := Machine.reaches_of_run .refl hrun
  obtain ⟨hack, -, honce⟩ :=
    notifier_acknowledges_and_posts_once plainDeps sampleState c hreach
  obtain ⟨p, hproc, -, -, hmay⟩ := hack _ _ _ _ hstep
  exact ⟨c, hrun, ⟨p, hproc, hmay⟩, honce _ _ hmark⟩

end SquadPanel.Discord
