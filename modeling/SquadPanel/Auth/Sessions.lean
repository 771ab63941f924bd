import SquadPanel.Js.Text
import SquadPanel.Lib.Interleave

/-!
# Browser sessions

`resolveSession`, `revokeSession` and `revokeAllForPlayers` of
`apps/api/src/lib/sessions.ts` over the `sessions` table and the Redis cache.
Every `await` is one call.  A promise that rejects is a process that makes no
further call.
-/

namespace SquadPanel.Auth

open Js Lib

/-! ## Records -/

inductive SessionScope where
  | panel
  | selfService
deriving Repr, DecidableEq

def normalizeScope (value : Option JsString) : SessionScope :=
  if value = some (js "self_service") then .selfService else .panel

/-- A row of `sessions`; times are in milliseconds. -/
structure SessionRow where
  id : JsString
  playerId : JsString
  expiresAt : Int
  lastActivityAt : Int
  ip : Option JsString
  userAgent : Option JsString
  scope : JsString
deriving Repr, DecidableEq

structure SessionRecord where
  id : JsString
  playerId : JsString
  expiresAt : Int
  lastActivityAt : Int
  ip : Option JsString
  userAgent : Option JsString
  scope : SessionScope
deriving Repr, DecidableEq

/-- The payload of a cache entry; one written before the migration has no scope. -/
structure CachedSession where
  playerId : JsString
  expiresAt : Int
  lastActivityAt : Int
  ip : Option JsString
  userAgent : Option JsString
  scope : Option JsString
deriving Repr, DecidableEq

def SessionScope.text : SessionScope → JsString
  | .panel => js "panel"
  | .selfService => js "self_service"

def SessionRow.record (row : SessionRow) : SessionRecord where
  id := row.id
  playerId := row.playerId
  expiresAt := row.expiresAt
  lastActivityAt := row.lastActivityAt
  ip := row.ip
  userAgent := row.userAgent
  scope := normalizeScope (some row.scope)

/-- What `node:crypto` and `JSON` do: the hash of a token, the HMAC under the key of the process,
and the texts of payloads and envelopes. -/
structure CacheFormat (Payload Raw : Type) where
  tokenIdFromToken : JsString → JsString
  cacheMac : JsString → Payload → List UInt8
  toBase64url : List UInt8 → JsString
  fromBase64url : JsString → List UInt8
  stringify : CachedSession → Payload
  parse : Payload → Option CachedSession
  stringifyEnvelope : Payload → JsString → Raw
  parseEnvelope : Raw → Option (Payload × JsString)

/-! ## The stores -/

def REDIS_PREFIX : JsString := js "session:"
def REVOKE_REDIS_DEL_BATCH : Nat := 1000

def cacheKey (tokenId : JsString) : JsString := REDIS_PREFIX ++ tokenId

theorem cacheKey_inj {id id' : JsString} : cacheKey id = cacheKey id' ↔ id = id' :=
  List.append_right_inj REDIS_PREFIX

/-- `respond` is the value that `resolveSession` gives its caller. -/
inductive StoreCall (Raw : Type) where
  | redisGet (key : JsString)
  | redisSet (key : JsString) (value : Raw)
  | redisDel (keys : List JsString)
  | selectSession (id : JsString)
  | deleteSession (id : JsString)
  | deleteSessionsOf (playerIds : List JsString)
  | now
  | publishRevoked (ts : Int) (playerId sessionId : JsString)
  | respond (session : Option SessionRecord)
deriving DecidableEq

section Programs
variable {Payload Raw : Type}

abbrev StoreReply : StoreCall Raw → Type
  | .redisGet _ => Option Raw
  | .selectSession _ => List SessionRow
  | .deleteSessionsOf _ => List (JsString × JsString)
  | .now => Int
  | .redisSet _ _ | .redisDel _ | .deleteSession _ | .publishRevoked _ _ _ | .respond _ => Unit

abbrev SessionM (Raw : Type) := Prog (StoreCall Raw) StoreReply

def ask (e : StoreCall Raw) : SessionM Raw (StoreReply e) := .call e .ret

/-! ## The programs -/

section
variable (format : CacheFormat Payload Raw)

def cachePut (record : SessionRecord) : SessionM Raw Unit :=
  let payload := format.stringify
    { playerId := record.playerId
      expiresAt := record.expiresAt
      lastActivityAt := record.lastActivityAt
      ip := record.ip
      userAgent := record.userAgent
      scope := some record.scope.text }
  ask (.redisSet (cacheKey record.id)
    (format.stringifyEnvelope payload (format.toBase64url (format.cacheMac record.id payload))))

/-- The session of a cache entry whose HMAC verifies. -/
def decodeEntry (tokenId : JsString)
    (raw : Raw) : Option SessionRecord :=
  match format.parseEnvelope raw with
  | none => none
  | some (payload, mac) =>
    let expected := format.cacheMac tokenId payload
    let actual := format.fromBase64url mac
    if actual.length ≠ expected.length ∨ actual ≠ expected then none
    else
      (format.parse payload).map fun obj =>
        { id := tokenId
          playerId := obj.playerId
          expiresAt := obj.expiresAt
          lastActivityAt := obj.lastActivityAt
          ip := obj.ip
          userAgent := obj.userAgent
          scope := normalizeScope obj.scope }

def cacheGet (tokenId : JsString) :
    SessionM Raw (Option SessionRecord) := do
  let raw ← ask (.redisGet (cacheKey tokenId))
  return raw.bind (decodeEntry format tokenId)

end

def invalidateSessionCache (tokenId : JsString) : SessionM Raw Unit :=
  ask (.redisDel [cacheKey tokenId])

def revokeSession (tokenId : JsString) : SessionM Raw Unit := do
  ask (.deleteSession tokenId)
  ask (.redisDel [cacheKey tokenId])

section
variable (format : CacheFormat Payload Raw)

/-- `resolveSession` from the read of the row on. -/
def resolveRow (tokenId : JsString) :
    SessionM Raw (Option SessionRecord) := do
  let rows ← ask (.selectSession tokenId)
  match rows.head? with
  | none => return none
  | some row => do
    let now ← ask .now
    if row.expiresAt ≤ now then do
      revokeSession tokenId
      return none
    else do
      cachePut format row.record
      return some row.record

/-- `resolveSession` from the answer of the cache on. -/
def resolveCached (tokenId : JsString) :
    Option SessionRecord → SessionM Raw (Option SessionRecord)
  | none => resolveRow format tokenId
  | some cached => do
    let now ← ask .now
    if cached.expiresAt ≥ now then return some cached
    else do
      invalidateSessionCache tokenId
      resolveRow format tokenId

def resolveSession (token : JsString) :
    SessionM Raw (Option SessionRecord) :=
  if token = [] then return none
  else do
    let tokenId := format.tokenIdFromToken token
    let cached ← cacheGet format tokenId
    resolveCached format tokenId cached

end

/-- The values of `i` in the loop over the batches. -/
def batchStarts (count : Nat) : List Nat :=
  (List.range ((count + REVOKE_REDIS_DEL_BATCH - 1) / REVOKE_REDIS_DEL_BATCH)).map
    (· * REVOKE_REDIS_DEL_BATCH)

/-- `rows.slice(i, i + REVOKE_REDIS_DEL_BATCH)`. -/
def batch (rows : List (JsString × JsString)) (i : Nat) : List (JsString × JsString) :=
  (rows.drop i).take REVOKE_REDIS_DEL_BATCH

def delBatches (rows : List (JsString × JsString)) : List Nat → SessionM Raw Unit
  | [] => return ()
  | i :: starts => do
    ask (.redisDel ((batch rows i).map fun row => cacheKey row.1))
    delBatches rows starts

def publishAll (ts : Int) : List (JsString × JsString) → SessionM Raw Unit
  | [] => return ()
  | row :: rows => do
    ask (.publishRevoked ts row.2 row.1)
    publishAll ts rows

/-- The rows of the `DELETE` are pairs of a session and its player. -/
def revokeAllForPlayers (playerIds : List JsString) (publisher : Bool) : SessionM Raw Unit :=
  if playerIds.length = 0 then return ()
  else do
    let rows ← ask (.deleteSessionsOf playerIds)
    if rows.length = 0 then return ()
    else do
      delBatches rows (batchStarts rows.length)
      if publisher then do
        let ts ← ask .now
        publishAll ts rows
      else return ()

/-! ## Requests over the stores -/

structure SessionStore (Raw : Type) where
  rows : List SessionRow
  redis : JsString → Option Raw

inductive SessionRequest where
  | resolve (token : JsString)
  | revoke (tokenId : JsString)
  | revokeAll (playerIds : List JsString) (publisher : Bool)
deriving Repr, DecidableEq

/-- What else happens to a session: `touchSession` moves its deadline and the request drops the
cache entry, and the timer of `pruneExpired` deletes the rows that are past theirs. -/
inductive SessionMove where
  | touch (id : JsString) (expiresAt lastActivityAt : Int)
  | invalidate (id : JsString)
  | prune (now : Int)
deriving Repr, DecidableEq

namespace SessionStore

def del (store : SessionStore Raw) (keys : List JsString) : SessionStore Raw :=
  { store with redis := fun key => if key ∈ keys then none else store.redis key }

def set (store : SessionStore Raw) (key : JsString) (value : Raw) : SessionStore Raw :=
  { store with redis := fun key' => if key' = key then some value else store.redis key' }

def perform [DecidableEq Raw] :
    (e : StoreCall Raw) → SessionStore Raw → StoreReply e → Option (SessionStore Raw)
  | .redisGet key, store, value => if value = store.redis key then some store else none
  | .redisSet key value, store, _ => some (store.set key value)
  | .redisDel keys, store, _ => some (store.del keys)
  | .selectSession id, store, rows =>
    if rows = (store.rows.filter (·.id = id)).take 1 then some store else none
  | .deleteSession id, store, _ =>
    some { store with rows := store.rows.filter (·.id ≠ id) }
  | .deleteSessionsOf playerIds, store, rows =>
    if rows =
        (store.rows.filter (·.playerId ∈ playerIds)).map fun row => (row.id, row.playerId) then
      some { store with rows := store.rows.filter (·.playerId ∉ playerIds) }
    else none
  | .now, store, _ | .publishRevoked _ _ _, store, _ | .respond _, store, _ => some store

def move : SessionMove → SessionStore Raw → Option (SessionStore Raw)
  | .touch id expiresAt lastActivityAt, store =>
    some { store with rows := store.rows.map fun row =>
      if row.id = id then { row with expiresAt, lastActivityAt } else row }
  | .invalidate id, store => some (store.del [cacheKey id])
  | .prune now, store => some { store with rows := store.rows.filter (now ≤ ·.expiresAt) }

end SessionStore

def sessionSystem [DecidableEq Raw] (format : CacheFormat Payload Raw) :
    System (StoreCall Raw) StoreReply SessionRequest (SessionStore Raw) SessionMove where
  body
    | .resolve token => do
      let session ← resolveSession format token
      ask (.respond session)
    | .revoke tokenId => revokeSession tokenId
    | .revokeAll playerIds publisher => revokeAllForPlayers playerIds publisher
  perform := SessionStore.perform
  environment := SessionStore.move

end Programs

end SquadPanel.Auth
