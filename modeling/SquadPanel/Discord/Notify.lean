import SquadPanel.Lib.Interleave
import SquadPanel.Streams.Loop

/-!
# The Discord notifier

`processEntry` of the notify loop and `deliverEnvelope` of the sender, every await a call.  A
call that fails may still have been carried out.  The loop logs what `processEntry` throws and
leaves the entry pending.
-/

namespace SquadPanel.Discord

open Js Lib Streams
open Prog (await)

/-! ## Events and webhooks -/

/-- The fields of an envelope that delivery looks at. -/
structure Envelope where
  eventId : JsString
  type : JsString
  serverId : Option JsString
deriving DecidableEq

/-- A row of `discord_webhooks`. -/
structure Webhook where
  id : JsString
  eventType : JsString
  enabled : Bool
  serverId : Option JsString
  webhookUrlEncrypted : JsString
deriving DecidableEq

/-- The table `discord_webhooks`, whose primary key is the id. -/
structure WebhookTable where
  rows : List Webhook
  distinct : (rows.map Webhook.id).Nodup
deriving DecidableEq

def EVENT_TYPE_MAP : List (JsString × JsString) :=
  [(js "server.crashed", js "server_crashed"), (js "moderation.ban", js "ban_issued"),
    (js "moderation.kick", js "kick"), (js "moderation.warn", js "warn"),
    (js "moderation.unban", js "unban"), (js "player_report", js "player_report"),
    (js "server.seeding_started", js "seed_needed"), (js "seed.call_sent", js "seed_needed"),
    (js "match.ended", js "match_ended"), (js "match.started", js "map_changed")]

def mapEventToDiscordType (type : JsString) : Option JsString := EVENT_TYPE_MAP.lookup type

/-- The enabled webhooks of the type that fire for the server. -/
def candidates (discordType : JsString) (envelope : Envelope) (rows : List Webhook) :
    List Webhook :=
  rows.filter fun row =>
    decide (row.eventType = discordType) && row.enabled &&
      (decide (row.serverId = none) || decide (row.serverId = envelope.serverId))

/-! ## Calls -/

/-- The keys that are set once: for an event, and for an event and a webhook. -/
inductive OnceKey
  | event (eventId : JsString)
  | mark (eventId webhookId : JsString)
deriving DecidableEq

def OnceKey.text (group : JsString) : OnceKey → JsString
  | .event eventId => DEDUP_KEY group eventId
  | .mark eventId webhookId => DEDUP_KEY group (eventId ++ js ":" ++ webhookId)

def deliveryAttemptsKey (group eventId : JsString) : JsString :=
  js "discord:notify:attempts:" ++ group ++ js ":" ++ eventId

/-- What is known of the answer to a webhook POST. -/
inductive Response
  | networkError
  | status (code : Nat) (retryAfterMs : Nat)

inductive NotifyCall
  | get (key : OnceKey)
  | set (key : OnceKey)
  | incr (eventId : JsString)
  | expire (eventId : JsString)
  | del (eventId : JsString)
  | xack (stream : JsString) (id : Nat)
  | selectWebhooks
  /-- The server name, the template of a type and its rendering; the answer says if there is
  a template. -/
  | resolve (discordType : JsString)
  | fetch (eventId webhookId url : JsString)
deriving DecidableEq

/-- An answer, or an error after which the command was carried out or not. -/
inductive Reply (α : Type)
  | value (a : α)
  | failed (applied : Bool)

def NotifyReply : NotifyCall → Type
  | .get _ => Reply Bool
  | .set _ => Reply Unit
  | .incr _ => Reply Nat
  | .expire _ => Reply Unit
  | .del _ => Reply Unit
  | .xack _ _ => Reply Unit
  | .selectWebhooks => Reply WebhookTable
  | .resolve _ => Reply Bool
  | .fetch _ _ _ => Response

abbrev NotifyM := ExceptT Unit (Prog NotifyCall NotifyReply)

def Reply.toExcept {α : Type} : Reply α → Except Unit α
  | .value a => .ok a
  | .failed _ => .error ()

/-! ## The sender -/

def MAX_SEND_ATTEMPTS : Nat := 5

def MAX_RATE_LIMIT_RETRIES : Nat := 5

def MAX_RETRY_AFTER_MS : Nat := 60000

structure PostOutcome where
  ok : Bool
  rateLimited : Bool

def fetchImpl (eventId webhookId url : JsString) : NotifyM Response :=
  await (.fetch eventId webhookId url) fun response : Response => .ok response

/-- The loop of `postWebhook` until the next attempt is counted.  `again` continues after a
counted attempt; `retries` more 429 answers are waited out. -/
def postUntilCounted (eventId webhookId url : JsString)
    (again : Nat → Bool → NotifyM PostOutcome) : Nat → Bool → NotifyM PostOutcome
  | retries, rateLimited => do
    match ← fetchImpl eventId webhookId url with
    | .networkError => again retries rateLimited
    | .status code retryAfterMs =>
      if code = 429 then
        match retries with
        | 0 => return ⟨false, true⟩
        | retries + 1 =>
          if MAX_RETRY_AFTER_MS < retryAfterMs then return ⟨false, true⟩
          else postUntilCounted eventId webhookId url again retries true
      else if 200 ≤ code ∧ code < 300 then return ⟨true, rateLimited⟩
      else if 400 ≤ code ∧ code < 500 then return ⟨false, rateLimited⟩
      else again retries rateLimited

/-- `sends` more attempts are made; the last one that fails gives up. -/
def postAttempts (eventId webhookId url : JsString) : Nat → Nat → Bool → NotifyM PostOutcome
  | 0 => fun _ rateLimited => return ⟨false, rateLimited⟩
  | sends + 1 =>
    postUntilCounted eventId webhookId url (postAttempts eventId webhookId url sends)

def postWebhook (eventId webhookId url : JsString) : NotifyM PostOutcome :=
  postAttempts eventId webhookId url MAX_SEND_ATTEMPTS MAX_RATE_LIMIT_RETRIES false

structure DeliveryResult where
  sent : Nat
  failed : Nat
  rateLimited : Nat

def DeliveryResult.zero : DeliveryResult := ⟨0, 0, 0⟩

def DeliveryResult.fail (result : DeliveryResult) : DeliveryResult :=
  { result with failed := result.failed + 1 }

/-- The parts of the dependencies that are no calls: the decoder of envelopes and the
decryption of a webhook url, which may throw. -/
structure NotifyDeps where
  group : JsString
  decode : JsString → Option Envelope
  decryptUrl : JsString → Option JsString

section
variable (eventId webhookId : JsString)

def isDelivered : NotifyM Bool :=
  await (.get (.mark eventId webhookId)) Reply.toExcept

def markDelivered : NotifyM Unit :=
  await (.set (.mark eventId webhookId)) Reply.toExcept

/-- The counters after a post.  If the mark cannot be stored, the webhook counts as sent and
as failed. -/
def recordOutcome (result : DeliveryResult)
    (outcome : PostOutcome) : NotifyM DeliveryResult :=
  let counted : DeliveryResult :=
    { result with rateLimited := result.rateLimited + if outcome.rateLimited then 1 else 0 }
  if outcome.ok then
    let sent : DeliveryResult := { counted with sent := counted.sent + 1 }
    tryCatch (do markDelivered eventId webhookId; return sent) fun _ => return sent.fail
  else return counted.fail

end

/-- The loop body of `deliverEnvelope`. -/
def deliverTo (deps : NotifyDeps) (eventId : JsString) (row : Webhook)
    (result : DeliveryResult) : NotifyM DeliveryResult := do
  -- `none` is a lookup that throws
  match ← tryCatch (some <$> isDelivered eventId row.id) fun _ => return none with
  | none => return result.fail
  | some true => return result
  | some false =>
    match deps.decryptUrl row.webhookUrlEncrypted with
    | none => return result.fail
    | some url => recordOutcome eventId row.id result (← postWebhook eventId row.id url)

def deliverToAll (deps : NotifyDeps) (eventId : JsString) :
    List Webhook → DeliveryResult → NotifyM DeliveryResult
  | [], result => return result
  | row :: rows, result => do
    deliverToAll deps eventId rows (← deliverTo deps eventId row result)

def deliverEnvelope (deps : NotifyDeps) (envelope : Envelope) : NotifyM DeliveryResult :=
  match mapEventToDiscordType envelope.type with
  | none => return .zero
  | some discordType => do
    let table ← await .selectWebhooks Reply.toExcept
    match candidates discordType envelope table.rows with
    | [] => return .zero
    | row :: rows => do
      if ← await (.resolve discordType) Reply.toExcept then
        deliverToAll deps envelope.eventId (row :: rows) .zero
      else return { DeliveryResult.zero with failed := (row :: rows).length }

/-! ## The consumer -/

def MAX_DELIVERY_ATTEMPTS : Nat := 10

/-- A stream entry as it is delivered to the consumer. -/
structure Delivered where
  stream : JsString
  id : Nat
  fields : List JsString

def xack (entry : Delivered) : NotifyM Unit :=
  await (.xack entry.stream entry.id) Reply.toExcept

/-- The end of a delivery that is not retried. -/
def finish (entry : Delivered) (eventId : JsString) : NotifyM Unit := do
  await (.set (.event eventId)) Reply.toExcept
  xack entry
  await (.del eventId) Reply.toExcept

def processEntry (deps : NotifyDeps) (entry : Delivered) : NotifyM Unit :=
  match parseStreamEnvelope deps.decode entry.fields with
  | none => xack entry
  | some envelope =>
    match mapEventToDiscordType envelope.type with
    | none => xack entry
    | some _ => do
      if ← await (.get (.event envelope.eventId)) Reply.toExcept then xack entry
      else
        let result ← deliverEnvelope deps envelope
        if 0 < result.failed then
          let attempts ← await (.incr envelope.eventId) Reply.toExcept
          await (.expire envelope.eventId) Reply.toExcept
          if attempts < MAX_DELIVERY_ATTEMPTS then return
          else finish entry envelope.eventId
        else finish entry envelope.eventId

/-! ## The system -/

/-- The texts of the keys that are set, the counters by their key, and the webhooks table. -/
structure NotifyState where
  keys : List JsString
  attempts : JsString → Nat
  webhooks : WebhookTable

def NotifyState.setKey (s : NotifyState) (key : JsString) : NotifyState :=
  { s with keys := key :: s.keys }

def NotifyState.setAttempts (s : NotifyState) (key : JsString) (count : Nat) : NotifyState :=
  { s with attempts := fun other => if other = key then count else s.attempts other }

/-- The state after a write that was carried out, or not. -/
def applied {α : Type} (s s' : NotifyState) : Reply α → NotifyState
  | .value _ => s'
  | .failed applied => if applied then s' else s

def performNotify (group : JsString) :
    (call : NotifyCall) → NotifyState → NotifyReply call → Option NotifyState
  | .get key, s, .value present =>
    if present = decide (key.text group ∈ s.keys) then some s else none
  | .get _, s, .failed _ => some s
  | .set key, s, reply => some (applied s (s.setKey (key.text group)) reply)
  | .incr eventId, s, reply =>
    let key := deliveryAttemptsKey group eventId
    match reply with
    | .value count =>
      if count = s.attempts key + 1 then some (s.setAttempts key count) else none
    | .failed done =>
      some (if done then s.setAttempts key (s.attempts key + 1) else s)
  | .expire _, s, _ => some s
  | .del eventId, s, reply =>
    some (applied s (s.setAttempts (deliveryAttemptsKey group eventId) 0) reply)
  | .xack _ _, s, _ => some s
  | .selectWebhooks, s, .value table => if table = s.webhooks then some s else none
  | .selectWebhooks, s, .failed _ => some s
  | .resolve _, s, _ => some s
  | .fetch _ _ _, s, _ => some s

/-- One consumer: deliveries of any entry, one at a time, a crash at any call, and changes of
the webhooks table by others. -/
def notifySystem (deps : NotifyDeps) :
    System NotifyCall NotifyReply Delivered NotifyState WebhookTable where
  body entry := do
    let _ ← (processEntry deps entry).run
    return ()
  perform := performNotify deps.group
  environment table s := some { s with webhooks := table }

abbrev NotifyConfig := Config Unit NotifyCall NotifyReply Delivered NotifyState

end SquadPanel.Discord
