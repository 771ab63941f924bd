import SquadPanel.Js.Map
import SquadPanel.Js.Text

/-!
# Vote assembly

The vote lines of one server become one record for each vote.  A vote is closed by its end line,
by the server going down or by the start of the next one, and its record holds the last ballot of
every voter.
-/

namespace SquadPanel.LogIngest.Vote

open Js List

inductive VoteType where
  | mapSkip
  | mapChange
  | admin

inductive VoteChoice where
  | yes
  | no
deriving DecidableEq

inductive VoteResult where
  | passed
  | failed
  | cancelled

structure VoteIdentity where
  eosId : Option JsString
  steamId64 : Option JsString
  name : JsString

/-- The fields of a start line that the open vote and its record repeat. -/
structure VoteSubject where
  voteType : VoteType
  initiator : Option VoteIdentity
  mapCurrent : Option JsString
  mapNext : Option JsString
  mapTarget : Option JsString

structure ParsedVoteStart extends VoteSubject where
  ts : JsString
  votesRequired : Nat

structure ParsedVoteBallot where
  ts : JsString
  voter : VoteIdentity
  choice : VoteChoice

structure ParsedVoteEnd where
  ts : JsString
  result : VoteResult
  votesCollected : Nat
  votesRequired : Nat

structure VoteBallotRecord where
  voter : VoteIdentity
  choice : VoteChoice
  votedAt : JsString

structure VoteRecordCommand extends VoteSubject where
  serverId : JsString
  votesCollected : Nat
  votesRequired : Nat
  result : VoteResult
  startedAt : JsString
  endedAt : JsString
  ballots : List VoteBallotRecord

structure OpenVote extends VoteSubject where
  startedAt : JsString
  votesRequired : Nat
  ballots : JsMap JsString VoteBallotRecord

inductive Signal where
  | voteStart (start : ParsedVoteStart)
  | voteBallot (ballot : ParsedVoteBallot)
  | voteEnd (ended : ParsedVoteEnd)
  | serverDown (ts : JsString)

/-! ## The assembler -/

variable (toLowerCase : JsString → JsString)

def ballotKey (voter : VoteIdentity) : JsString :=
  match voter.eosId.filter (· ≠ []), voter.steamId64.filter (· ≠ []) with
  | some eosId, _ => js "eos:" ++ eosId
  | none, some steamId64 => js "steam:" ++ steamId64
  | none, none => js "name:" ++ toLowerCase (trim voter.name)

variable (serverId : JsString) (start : ParsedVoteStart) (cast : List ParsedVoteBallot)

def buildCancelled (ts : JsString) (openVote : OpenVote) : VoteRecordCommand :=
  let ballots := openVote.ballots.entries.map Prod.snd
  let yesCount := (ballots.filter (·.choice = .yes)).length
  ⟨openVote.toVoteSubject, serverId, yesCount, openVote.votesRequired, .cancelled,
    openVote.startedAt, ts, ballots⟩

def onVoteStart (vote : Option OpenVote) :
    Option OpenVote × List VoteRecordCommand :=
  (some ⟨start.toVoteSubject, start.ts, start.votesRequired, .empty⟩,
    (vote.map (buildCancelled serverId start.ts)).toList)

def onVoteBallot (ballot : ParsedVoteBallot) (vote : OpenVote) : OpenVote :=
  let record := ⟨ballot.voter, ballot.choice, ballot.ts⟩
  { vote with ballots := vote.ballots.set (ballotKey toLowerCase ballot.voter) record }

def onVoteEnd (ended : ParsedVoteEnd) (vote : OpenVote) : VoteRecordCommand :=
  ⟨vote.toVoteSubject, serverId, ended.votesCollected,
    if ended.votesRequired = 0 then vote.votesRequired else ended.votesRequired,
    ended.result, vote.startedAt, ended.ts, vote.ballots.entries.map Prod.snd⟩

/-- The open vote after a signal, and the commands the signal gives. -/
def on (vote : Option OpenVote) : Signal → Option OpenVote × List VoteRecordCommand
  | .voteStart start => onVoteStart serverId start vote
  | .voteBallot ballot => (vote.map (onVoteBallot toLowerCase ballot), [])
  | .voteEnd ended => (none, (vote.map (onVoteEnd serverId ended)).toList)
  | .serverDown ts => (none, (vote.map (buildCancelled serverId ts)).toList)

def feed (vote : Option OpenVote) : List Signal → List VoteRecordCommand
  | [] => []
  | signal :: signals =>
    let (vote, commands) := on toLowerCase serverId vote signal
    commands ++ feed vote signals

/-! ## What the signals say -/

/-- The ballots up to the next signal of another kind, and that signal. -/
def close : List Signal → Option (List ParsedVoteBallot × Signal)
  | [] => none
  | .voteBallot ballot :: signals => (close signals).map fun c => (ballot :: c.1, c.2)
  | signal :: _ => some ([], signal)

/-- The starts that a later signal closes, each with its ballots and that signal. -/
def closedVotes : List Signal → List (ParsedVoteStart × List ParsedVoteBallot × Signal)
  | [] => []
  | .voteStart start :: signals =>
    ((close signals).map fun c => (start, c)).toList ++ closedVotes signals
  | _ :: signals => closedVotes signals

/-- The ballots under the keys of their voters. -/
def keyed : List (JsString × VoteBallotRecord) :=
  cast.map fun b => (ballotKey toLowerCase b.voter, ⟨b.voter, b.choice, b.ts⟩)

/-- The record of a start, the ballots after it and the signal that closes it. -/
structure IsRecord (closed : ParsedVoteStart × List ParsedVoteBallot × Signal)
    (command : VoteRecordCommand) : Prop where
  subject : command.toVoteSubject = closed.1.toVoteSubject
  server : command.serverId = serverId
  started : command.startedAt = closed.1.ts
  ballots : command.ballots = JsMap.lastValues (keyed toLowerCase closed.2.1)
  closing : match closed.2.2 with
    | .voteEnd ended => command.endedAt = ended.ts ∧ command.result = ended.result ∧
        command.votesCollected = ended.votesCollected ∧
        command.votesRequired =
          if ended.votesRequired = 0 then closed.1.votesRequired else ended.votesRequired
    | .voteStart { ts, .. } | .serverDown ts => command.endedAt = ts ∧
        command.result = .cancelled ∧ command.votesRequired = closed.1.votesRequired ∧
        command.votesCollected = (command.ballots.filter (·.choice = .yes)).length
    | .voteBallot _ => False

/-! ## The records are those of the closed votes -/

/-- The vote that is open after a start and some ballots. -/
def opened : OpenVote :=
  ⟨start.toVoteSubject, start.ts, start.votesRequired, .ofEntries (keyed toLowerCase cast)⟩

/-- The start of the open vote and its ballots, as signals. -/
def pending : Option (ParsedVoteStart × List ParsedVoteBallot) → List Signal
  | none => []
  | some (start, cast) => .voteStart start :: cast.map .voteBallot

theorem closedVotes_pending (signals : List Signal) :
    closedVotes (pending (some (start, cast)) ++ signals) =
      ((close signals).map fun c => (start, cast ++ c.1, c.2)).toList ++ closedVotes signals := by
  have hballots : closedVotes (cast.map .voteBallot ++ signals) = closedVotes signals ∧
      close (cast.map .voteBallot ++ signals) =
        (close signals).map fun c => (cast ++ c.1, c.2) := by
    induction cast with
    | nil => simp
    | cons ballot cast ih => simp [close, closedVotes, ih, Function.comp_def]
  simp [pending, closedVotes, hballots, Function.comp_def]

theorem opened_concat (ballot : ParsedVoteBallot) : opened toLowerCase start (cast ++ [ballot]) =
      onVoteBallot toLowerCase ballot (opened toLowerCase start cast) := by
  rw [opened, keyed, map_append]
  exact congrArg _ (JsMap.ofEntries_concat (keyed toLowerCase cast) _)

theorem values_opened : (opened toLowerCase start cast).ballots.entries.map Prod.snd =
    JsMap.lastValues (keyed toLowerCase (cast ++ [])) := by
  rw [append_nil]
  exact JsMap.values_ofEntries (keyed toLowerCase cast)

theorem feed_pending (signals : List Signal)
    (vote : Option (ParsedVoteStart × List ParsedVoteBallot)) :
    Forall₂ (IsRecord toLowerCase serverId) (closedVotes (pending vote ++ signals))
      (feed toLowerCase serverId (vote.map fun v => opened toLowerCase v.1 v.2) signals) := by
  induction signals generalizing vote with
  | nil =>
    cases vote with
    | none => exact .nil
    | some v => rw [closedVotes_pending]; exact .nil
  | cons signal signals ih =>
    cases vote with
    | none =>
      cases signal with
      | voteStart start => exact ih (some (start, []))
      | _ => exact ih none
    | some v =>
      cases signal with
      | voteBallot ballot =>
        have hrest := ih (some (v.1, v.2 ++ [ballot]))
        rw [Option.map_some, opened_concat, pending, map_append, cons_append, append_assoc] at hrest
        exact hrest
      | voteStart start =>
        rw [closedVotes_pending]
        exact .cons ⟨rfl, rfl, rfl, values_opened .., rfl, rfl, rfl, rfl⟩ (ih (some (start, [])))
      | _ =>
        rw [closedVotes_pending]
        exact .cons ⟨rfl, rfl, rfl, values_opened .., rfl, rfl, rfl, rfl⟩ (ih none)

/-- Every start gives one record as soon as a later signal closes it, and nothing else does. -/
theorem feed_records (signals : List Signal) :
    Forall₂ (IsRecord toLowerCase serverId) (closedVotes signals)
      (feed toLowerCase serverId none signals) :=
  feed_pending toLowerCase serverId signals none

end SquadPanel.LogIngest.Vote
