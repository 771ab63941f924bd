import SquadPanel.Js.Text

/-!
# Operator commands

The request and result records exchanged with the rcon worker
(`packages/shared-types/src/rcon-commands.ts`) and the text of the command a
request stands for (`buildOperatorCommand` in `apps/workers/rcon/src/commands.ts`).
-/

namespace SquadPanel.Rcon

open Js

/-! ## Values -/

/-- A value returned by `JSON.parse`.  No reader of a request looks at the value
of a number, so it is kept as its lexeme. -/
inductive Json
  | null
  | bool (b : Bool)
  | number (lexeme : JsString)
  | str (s : JsString)
  | arr (items : List Json)
  | obj (fields : List (JsString × Json))

namespace Json

/-- `isRecord`: arrays are objects too. -/
def isRecord : Json → Bool
  | .arr _ | .obj _ => true
  | _ => false

/-- Property access on a record; an array has none of the properties read here. -/
def get (value : Json) (name : JsString) : Option Json :=
  match value with
  | .obj fields => (fields.find? (·.1 = name)).map (·.2)
  | _ => none

/-- The property as a string, when it is one. -/
def getString (value : Json) (name : JsString) : Option JsString :=
  match value.get name with
  | some (.str s) => some s
  | _ => none

end Json

/-! ## Requests and results -/

/-- `RCON_OPERATOR_COMMANDS` -/
inductive RconOperatorCommandName
  | adminBan
  | adminBroadcast
  | adminChangeLayer
  | adminEndMatch
  | adminKick
  | adminReloadServerConfig
  | adminSetNextLayer
  | adminWarn
  deriving DecidableEq, Repr

namespace RconOperatorCommandName

def all : List RconOperatorCommandName :=
  [adminBan, adminBroadcast, adminChangeLayer, adminEndMatch, adminKick,
    adminReloadServerConfig, adminSetNextLayer, adminWarn]

def text : RconOperatorCommandName → JsString
  | adminBan => js "AdminBan"
  | adminBroadcast => js "AdminBroadcast"
  | adminChangeLayer => js "AdminChangeLayer"
  | adminEndMatch => js "AdminEndMatch"
  | adminKick => js "AdminKick"
  | adminReloadServerConfig => js "AdminReloadServerConfig"
  | adminSetNextLayer => js "AdminSetNextLayer"
  | adminWarn => js "AdminWarn"

/-- `rconOperatorCommandNameSchema.safeParse` -/
def parse : Option Json → Option RconOperatorCommandName
  | some (.str s) => all.find? (·.text = s)
  | _ => none

end RconOperatorCommandName

structure RconCommandRequest where
  request_id : JsString
  command : RconOperatorCommandName
  args : List JsString
  deriving DecidableEq

structure RconCommandResult where
  ok : Bool
  server_id : JsString
  request_id : JsString
  command : Option RconOperatorCommandName
  response : Option JsString
  error : Option JsString
  completed_at : JsString
  duration_ms : Int
  deriving DecidableEq

/-! ## Schemas -/

/-- Built-ins of the runtime and the schema library that requests pass through.
`none` stands for a thrown `SyntaxError` of `JSON.parse` and for `NaN`. -/
structure Runtime where
  jsonParse : JsString → Option Json
  /-- `Date.parse` -/
  dateParse : JsString → Option Int
  /-- `Number(text)`, when the result is finite -/
  number : JsString → Option Int
  /-- `new Date(ms).toISOString()` -/
  toISOString : Int → JsString
  /-- `z.string().datetime()` -/
  isDatetime : JsString → Bool
  /-- `error.message` of a failed request check -/
  requestError : Json → JsString
  /-- `error.message` of a failed result check -/
  resultError : RconCommandResult → JsString

def RCON_ARG_MAX_LENGTH : Nat := 1024
def RCON_ARGS_MAX_COUNT : Nat := 8

/-- `z.string().min(lo).max(hi)` -/
def isStringOf (lo hi : Nat) : Json → Bool
  | .str s => lo ≤ s.length && s.length ≤ hi
  | _ => false

/-- `args`: at most eight strings of at most 1024 units, `[]` when absent. -/
def parseArgs : Option Json → Option (List JsString)
  | none => some []
  | some (.arr items) =>
    if items.length ≤ RCON_ARGS_MAX_COUNT then
      items.mapM fun
        | .str s => if s.length ≤ RCON_ARG_MAX_LENGTH then some s else none
        | _ => none
    else none
  | some _ => none

/-- `actor_player_id`: absent, `null` or 1 to 64 units. -/
def isActorPlayerId : Option Json → Bool
  | none | some .null => true
  | some value => isStringOf 1 64 value

/-- `enqueued_at`: absent or a datetime. -/
def isEnqueuedAt (rt : Runtime) : Option Json → Bool
  | none => true
  | some (.str s) => rt.isDatetime s
  | some _ => false

/-- The property names a request may have; the schema is strict. -/
def requestFields : List JsString :=
  [js "request_id", js "command", js "args", js "actor_player_id", js "enqueued_at"]

/-- `rconCommandRequestSchema.safeParse`; `none` is a failed check. -/
def rconCommandRequestSchema (rt : Runtime) (input : Json) : Option RconCommandRequest :=
  match input with
  | .obj fields => do
    guard (fields.all fun f => requestFields.contains f.1)
    let requestId ← input.getString (js "request_id")
    guard (isStringOf 1 128 (.str requestId))
    let command ← RconOperatorCommandName.parse (input.get (js "command"))
    let args ← parseArgs (input.get (js "args"))
    guard (isActorPlayerId (input.get (js "actor_player_id")))
    guard (isEnqueuedAt rt (input.get (js "enqueued_at")))
    return { request_id := requestId, command, args }
  | _ => none

/-- `rconCommandResultSchema.parse` accepts the record. -/
def rconCommandResultSchema (rt : Runtime) (result : RconCommandResult) : Bool :=
  1 ≤ result.server_id.length &&
    (1 ≤ result.request_id.length && result.request_id.length ≤ 128) &&
    rt.isDatetime result.completed_at && 0 ≤ result.duration_ms

def RCON_COMMAND_RESULT_PREFIX : JsString := js "rcon:command-result:"
def RCON_COMMAND_DONE_PREFIX : JsString := js "rcon:command-done:"
def RCON_COMMAND_DEADLINE_FIELD : JsString := js "deadline_at"
def RCON_COMMAND_EXPIRED_ERROR : JsString := js "expired"

def rconCommandResultKey (requestId : JsString) : JsString :=
  RCON_COMMAND_RESULT_PREFIX ++ requestId

def rconCommandDoneKey (requestId : JsString) : JsString :=
  RCON_COMMAND_DONE_PREFIX ++ requestId

theorem rconCommandDoneKey_inj {a b : JsString} :
    rconCommandDoneKey a = rconCommandDoneKey b ↔ a = b := by
  simp [rconCommandDoneKey]

theorem rconCommandResultKey_inj {a b : JsString} :
    rconCommandResultKey a = rconCommandResultKey b ↔ a = b := by
  simp [rconCommandResultKey]

/-- The two prefixes differ, so deleting a result never touches a done marker. -/
theorem rconCommandResultKey_ne_doneKey (a b : JsString) :
    rconCommandResultKey a ≠ rconCommandDoneKey b := by
  intro heq
  have hunit := congrArg (fun key : JsString => key[13]?) heq
  simp [rconCommandResultKey, rconCommandDoneKey, RCON_COMMAND_RESULT_PREFIX,
    RCON_COMMAND_DONE_PREFIX, js, utf16Encode, utf16EncodeChar] at hunit

/-! ## Command texts -/

def BROADCAST_MAX_CHARS : Nat := 300
def TARGET_MAX_CHARS : Nat := 64
def LAYER_NAME_MAX_CHARS : Nat := 128

/-- A template literal part: the decimal text of a number. -/
def decimal (n : Nat) : JsString := utf16Encode (Nat.toDigits 10 n)

/-- `/[\r\n\0]/u` -/
def isLineBreakOrNul (u : UInt16) : Bool := u == 0x0D || u == 0x0A || u == 0x00

/-- `LAYER_NAME_PATTERN`: `/^[A-Za-z0-9 '_.-]{1,128}$/` -/
def LAYER_NAME_PATTERN (text : JsString) : Bool :=
  1 ≤ text.length && text.length ≤ 128 &&
    text.all fun u => isAsciiLetter u || isDigit u || (js " '_.-").contains u

/-- `BAN_LENGTH_PATTERN`: `/^\d+[smhdwMy]?$/` -/
def BAN_LENGTH_PATTERN (text : JsString) : Bool :=
  let rest := text.dropWhile isDigit
  text.head?.any isDigit &&
    match rest with
    | [] => true
    | [u] => (js "smhdwMy").contains u
    | _ => false

section
variable (value : Option JsString)

def assertSafeSingleLineText (label : JsString) (maxChars : Nat) :
    Except JsString JsString :=
  let text := (value.map trim).getD []
  if text = [] then throw (label ++ js " is required")
  else if text.length > maxChars then
    throw (label ++ js " exceeds " ++ decimal maxChars ++ js " characters")
  else if text.any isLineBreakOrNul then throw (js "unsafe " ++ label)
  else pure text

def assertSafeTarget (label : JsString) : Except JsString JsString := do
  let text ← assertSafeSingleLineText value label TARGET_MAX_CHARS
  if text.any isWhitespace then throw (label ++ js " must not contain whitespace")
  return text

def assertValidBanLength : Except JsString JsString :=
  let text := (value.map trim).getD []
  if text = [] then throw (js "AdminBan length is required")
  else if !BAN_LENGTH_PATTERN text then throw (js "invalid AdminBan length: " ++ text)
  else pure text

end

variable (args : List JsString)

def validateLayerName : Except JsString JsString := do
  if args.length ≠ 1 then
    throw (js "AdminChangeLayer/AdminSetNextLayer expects exactly one layer argument")
  let text ← assertSafeSingleLineText args[0]? (js "layer name") LAYER_NAME_MAX_CHARS
  if !LAYER_NAME_PATTERN text then throw (js "unsafe layer name")
  return text

def validateBroadcastText : Except JsString JsString := do
  if args.length ≠ 1 then throw (js "AdminBroadcast expects exactly one message argument")
  assertSafeSingleLineText args[0]? (js "AdminBroadcast message") BROADCAST_MAX_CHARS

/-- `AdminWarn` and `AdminKick` differ only in their words: `<name> <target> <text>`. -/
def buildTargetedCommand (name textLabel : JsString) (args : List JsString) :
    Except JsString JsString := do
  if args.length ≠ 2 then
    throw (name ++ js " expects exactly two arguments: target id and " ++ textLabel)
  let target ← assertSafeTarget args[0]? (name ++ js " target")
  let text ← assertSafeSingleLineText args[1]? (name ++ js " " ++ textLabel) BROADCAST_MAX_CHARS
  return name ++ js " " ++ target ++ js " " ++ text

def buildAdminWarnCommand : List JsString → Except JsString JsString :=
  buildTargetedCommand (js "AdminWarn") (js "message")

def buildAdminKickCommand : List JsString → Except JsString JsString :=
  buildTargetedCommand (js "AdminKick") (js "reason")

def buildAdminBanCommand : Except JsString JsString := do
  if args.length ≠ 3 then
    throw (js "AdminBan expects exactly three arguments: target id, ban length and reason")
  let target ← assertSafeTarget args[0]? (js "AdminBan target")
  let banLength ← assertValidBanLength args[1]?
  let reason ← assertSafeSingleLineText args[2]? (js "AdminBan reason") BROADCAST_MAX_CHARS
  return js "AdminBan " ++ target ++ js " " ++ banLength ++ js " " ++ reason

def ensureNoArgs (request : RconCommandRequest) : Except JsString Unit :=
  if request.args.length > 0 then
    throw (request.command.text ++ js " does not accept arguments")
  else pure ()

/-- The RCON command a request stands for; the error is the thrown message. -/
def buildOperatorCommand (rt : Runtime) (input : Json) : Except JsString JsString :=
  match rconCommandRequestSchema rt input with
  | none => throw (js "unsupported or invalid rcon operator command: " ++ rt.requestError input)
  | some request =>
    match request.command with
    | .adminBroadcast => do
      return js "AdminBroadcast " ++ (← validateBroadcastText request.args)
    | .adminChangeLayer => do
      return js "AdminChangeLayer " ++ (← validateLayerName request.args)
    | .adminEndMatch => do
      ensureNoArgs request
      return js "AdminEndMatch"
    | .adminReloadServerConfig => do
      ensureNoArgs request
      return js "AdminReloadServerConfig"
    | .adminSetNextLayer => do
      return js "AdminSetNextLayer " ++ (← validateLayerName request.args)
    | .adminWarn => buildAdminWarnCommand request.args
    | .adminKick => buildAdminKickCommand request.args
    | .adminBan => buildAdminBanCommand request.args

end SquadPanel.Rcon
