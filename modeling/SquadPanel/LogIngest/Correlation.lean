import SquadPanel.Lib.Machine
import SquadPanel.LogIngest.Ingest

/-!
# Pairing the lines of connecting players

The queues pair the lines of several players rightly as long as the players go through their
stages in the order in which they came.  When one is overtaken, or drops and leaves its line in
the queue, the next event mixes two players.
-/

namespace SquadPanel.LogIngest.Parser

open Js Lib Lib.Machine Lib.Correlate List

/-! ## What a line is to the ingestor -/

inductive Reading where
  | remoteAddr (ip : JsString)
  | join (name : JsString)
  | eos (eosId steamId64 : JsString)
  | other
  deriving DecidableEq

def netReading (message : JsString) : Reading :=
  match BEACON_BIND message, PLAYER_REMOTE_ADDR message, PLAYER_JOIN_SUCCEEDED message with
  | some _, _, _ => .other
  | none, some ip, _ => .remoteAddr ip
  | none, none, some name => .join name
  | none, none, none => .other

def reading (line : LogLine) : Reading :=
  if line.category = js "LogNet" then netReading line.message
  else if LogIngestor.isEosCategory line.category then
    match PLAYER_EOS_CONNECTION line.message with
    | some (eosId, steamId64) => .eos eosId steamId64
    | none => .other
  else .other

variable (ing : LogIngestor)

/-- What a line of each kind does. -/
def LogIngestor.afterReading (ts : Int) : Reading → LogIngestor
  | .remoteAddr ip => { ing with pendingIps := pushCorrelation ing.pendingIps ⟨ip, ts⟩ }
  | .join name =>
    let consumed := ing.consumeCorrelated PendingIp.ts ing.pendingIps ts
    { ing with
      pendingIps := consumed.2
      pendingJoins :=
        pushCorrelation ing.pendingJoins ⟨name, ts, consumed.1.map PendingIp.ip⟩ }
  | .eos _ _ =>
    { ing with pendingJoins := (ing.consumeCorrelated PendingJoin.ts ing.pendingJoins ts).2 }
  | .other => ing

/-- The event about a connection that a line gives. -/
def LogIngestor.connectedEvent (ts : Int) : Reading → Option EventEnvelope
  | .eos eosId steamId64 =>
    (ing.consumeCorrelated PendingJoin.ts ing.pendingJoins ts).1.map fun join =>
      ing.build ts (.playerConnected join.name eosId steamId64 join.ip)
  | _ => none

def Payload.isPlayerConnected : Payload → Bool
  | .playerConnected _ _ _ _ => true
  | _ => false

theorem handleNet_eq (message : JsString) (ts : Int) :
    (ing.handleNet message ts).1 = ing.afterReading ts (netReading message) ∧
      (ing.handleNet message ts).2.filter (·.payload.isPlayerConnected) =
        (ing.connectedEvent ts (netReading message)).toList := by
  unfold LogIngestor.handleNet netReading
  split
  · next hbind =>
    simp only [hbind]
    refine ⟨rfl, ?_⟩
    split <;> rfl
  · next hbind =>
    split
    · next haddr =>
      simp only [hbind, haddr]
      exact ⟨rfl, rfl⟩
    · next haddr =>
      split
      · next hjoin =>
        simp only [hbind, haddr, hjoin]
        exact ⟨rfl, rfl⟩
      · next hjoin =>
        simp only [hbind, haddr, hjoin]
        split <;> exact ⟨rfl, rfl⟩

theorem handleMessage_eq (line : LogLine) :
    (ing.handleMessage line).1 = ing.afterReading line.ts (reading line) ∧
      (ing.handleMessage line).2.filter (·.payload.isPlayerConnected) =
        (ing.connectedEvent line.ts (reading line)).toList := by
  unfold LogIngestor.handleMessage reading
  split
  · exact handleNet_eq ing line.message line.ts
  · split
    · unfold LogIngestor.handleEos
      cases PLAYER_EOS_CONNECTION line.message with
      | none => exact ⟨rfl, rfl⟩
      | some ids =>
        obtain ⟨eosId, steamId64⟩ := ids
        simp only [LogIngestor.afterReading, LogIngestor.connectedEvent]
        rcases ing.consumeCorrelated PendingJoin.ts ing.pendingJoins line.ts with ⟨_ | join, rest⟩
        · exact ⟨rfl, rfl⟩
        · exact ⟨rfl, rfl⟩
    · exact ⟨rfl, rfl⟩

/-! ## Logs of connecting players -/

structure Player where
  name : JsString
  eosId : JsString
  steamId64 : JsString
  ip : JsString

/-- A line of a player, who is known here and not in the log. -/
structure Arrival where
  player : Nat
  ts : Int
  deriving DecidableEq

/-- The next line of the log. -/
inductive Entry where
  | addr (player : Nat) (line : LogLine)
  | join (player : Nat) (line : LogLine)
  | eos (player : Nat) (line : LogLine)
  | other (line : LogLine)

def Entry.line : Entry → LogLine
  | .addr _ line | .join _ line | .eos _ line | .other line => line

/-- The lines of connecting players so far, with the time of the last one. -/
structure Seen where
  addrs : List Arrival
  joins : List Arrival
  eoss : List Nat
  now : Int

def Seen.joined (seen : Seen) : List Nat := seen.joins.map Arrival.player

def Seen.note (seen : Seen) : Entry → Seen
  | .addr p line => { seen with addrs := seen.addrs ++ [⟨p, line.ts⟩], now := line.ts }
  | .join p line => { seen with joins := seen.joins ++ [⟨p, line.ts⟩], now := line.ts }
  | .eos p line => { seen with eoss := p :: seen.eoss, now := line.ts }
  | .other _ => seen

structure State where
  ingestor : LogIngestor
  events : List EventEnvelope
  seen : Seen

def State.start (now : Int) : State := ⟨ing, [], [], [], [], now⟩

def step (s : State) (e : Entry) : Option State :=
  let (ingestor, events) := s.ingestor.handleMessage e.line
  some ⟨ingestor, s.events ++ events, s.seen.note e⟩

/-- A line of the player, within the window at `now`. -/
def Recent (window : Int) (p : Nat) (now : Int) (arrivals : List Arrival) : Prop :=
  ∃ x ∈ arrivals, x.player = p ∧ Fresh Arrival.ts window now x

instance (window : Int) (p : Nat) (now : Int) (arrivals : List Arrival) :
    Decidable (Recent window p now arrivals) :=
  inferInstanceAs (Decidable (∃ x ∈ arrivals, _ ∧ _))

/-- The lines of connecting players: each player's own in their order and within the window, any
of the later ones missing. -/
def Connecting (players : Nat → Player) (s : State) : Entry → Prop
  | .addr p line =>
    reading line = .remoteAddr (players p).ip ∧ p ∉ s.seen.addrs.map Arrival.player
  | .join p line =>
    reading line = .join (players p).name ∧ p ∉ s.seen.joined ∧
      Recent s.ingestor.joinCorrelationWindowMs p line.ts s.seen.addrs
  | .eos p line =>
    reading line = .eos (players p).eosId (players p).steamId64 ∧ p ∉ s.seen.eoss ∧
      Recent s.ingestor.joinCorrelationWindowMs p line.ts s.seen.joins
  | .other line => reading line = .other

instance (players : Nat → Player) (s : State) (e : Entry) : Decidable (Connecting players s e) := by
  cases e <;> unfold Connecting <;> infer_instance

def ahead (p : Nat) (arrivals : List Arrival) : List Arrival :=
  arrivals.takeWhile (·.player ≠ p)

def behind (p : Nat) (arrivals : List Arrival) : List Arrival :=
  (arrivals.dropWhile (·.player ≠ p)).tail

/-- It is the player's turn: who came earlier is done or out of the window, and not too many
came later. -/
def Turn (window : Int) (p : Nat) (now : Int) (arrivals : List Arrival) (done : List Nat) : Prop :=
  (behind p arrivals).length < MAX_PENDING_CORRELATIONS ∧
    ∀ x ∈ ahead p arrivals, x.player ∈ done ∨ ¬ Fresh Arrival.ts window now x

instance (window : Int) (p : Nat) (now : Int) (arrivals : List Arrival) (done : List Nat) :
    Decidable (Turn window p now arrivals done) :=
  inferInstanceAs (Decidable (_ ∧ _))

/-- The lines come in the order of time, and players join and get their ids in the order in
which they came. -/
def InTurn (s : State) : Entry → Prop
  | .addr _ line => s.seen.now ≤ line.ts
  | .join p line =>
    s.seen.now ≤ line.ts ∧
      Turn s.ingestor.joinCorrelationWindowMs p line.ts s.seen.addrs s.seen.joined
  | .eos p line =>
    s.seen.now ≤ line.ts ∧
      Turn s.ingestor.joinCorrelationWindowMs p line.ts s.seen.joins s.seen.eoss
  | .other _ => True

instance (s : State) (e : Entry) : Decidable (InTurn s e) := by
  cases e <;> unfold InTurn <;> infer_instance

/-- The event of a player. -/
def OfPlayer (player : Player) (event : EventEnvelope) : Prop :=
  event.payload =
    .playerConnected player.name player.eosId player.steamId64 (some player.ip)

instance (player : Player) (event : EventEnvelope) : Decidable (OfPlayer player event) :=
  inferInstanceAs (Decidable (_ = _))

/-! ## The queues of a log in turn -/

variable {players : Nat → Player} {arrivals : List Arrival} {p : Nat}

theorem around {x : Arrival} (hx : x ∈ arrivals)
    (hplayer : x.player = p) (hnodup : (arrivals.map Arrival.player).Nodup) :
    arrivals = ahead p arrivals ++ x :: behind p arrivals := by
  unfold ahead behind
  induction arrivals with
  | nil => cases hx
  | cons y arrivals ih =>
    rw [map_cons, nodup_cons] at hnodup
    rcases mem_cons.mp hx with rfl | hx
    · simp only [hplayer, takeWhile_cons, dropWhile_cons, ne_eq, not_true_eq_false,
        decide_false, Bool.false_eq_true, if_false, tail_cons, nil_append]
    · have hne : y.player ≠ p := by
        rintro rfl
        exact hnodup.1 (hplayer ▸ mem_map_of_mem hx)
      simp only [takeWhile_cons, dropWhile_cons, ne_eq, hne, not_false_eq_true,
        decide_true, if_true, cons_append]
      exact congrArg (y :: ·) (ih hx hnodup.2)

section Queue

variable {α : Type} {item : Arrival → α} {tsOf : α → Int} {window now later : Int}
  {arrivals : List Arrival} {pending : List α} {done : List Nat} {p : Nat}

/-- The pending items are those of arrivals whose players are not done. -/
def Holds (item : Arrival → α) (window : Int) (arrivals : List Arrival) (pending : List α)
    (done : List Nat) (now : Int) : Prop :=
  ∃ queue, pending = queue.map item ∧
    Tracks Arrival.ts window MAX_PENDING_CORRELATIONS arrivals queue (·.player ∈ done) now

theorem Holds.mono (hholds : Holds item window arrivals pending done now) (hle : now ≤ later) :
    Holds item window arrivals pending done later := by
  obtain ⟨queue, hpending, htracks⟩ := hholds
  exact ⟨queue, hpending, htracks.mono hle⟩

theorem Holds.push (hholds : Holds item window arrivals pending done now)
    (hnodup : (arrivals.map Arrival.player).Nodup) (hle : now ≤ later) (hp : p ∉ done) :
    Holds item window (arrivals ++ [⟨p, later⟩])
      (LogIngestor.pushCorrelation pending (item ⟨p, later⟩)) done later := by
  obtain ⟨queue, rfl, htracks⟩ := hholds
  refine ⟨Correlate.push MAX_PENDING_CORRELATIONS queue ⟨p, later⟩, ?_, ?_⟩
  · exact push_map item queue ⟨p, later⟩
  · exact htracks.push (List.Nodup.of_map _ hnodup) hle hp

/-- A player whose turn it is gets the item of its own line. -/
theorem Holds.consume {ing : LogIngestor} {done' : List Nat}
    (hholds : Holds item ing.joinCorrelationWindowMs arrivals pending done now)
    (htsOf : tsOf ∘ item = Arrival.ts) (hnodup : (arrivals.map Arrival.player).Nodup)
    (hle : now ≤ later) (hp : p ∉ done)
    (hrecent : Recent ing.joinCorrelationWindowMs p later arrivals)
    (hturn : Turn ing.joinCorrelationWindowMs p later arrivals done)
    (hdone' : ∀ q, q ∈ done' ↔ q ∈ done ∨ q = p) : ∃ x rest, x.player = p ∧
      ing.consumeCorrelated tsOf pending later = (some (item x), rest) ∧
      Holds item ing.joinCorrelationWindowMs arrivals rest done' later := by
  obtain ⟨queue, rfl, htracks⟩ := hholds
  obtain ⟨x, hx, rfl, hfresh⟩ := hrecent
  have harr := around hx rfl hnodup
  rw [harr] at htracks
  obtain ⟨rest, hconsume, hrest⟩ := htracks.consume (harr ▸ List.Nodup.of_map _ hnodup) hle hp
    hfresh hturn.1 hturn.2
  rw [← harr] at hrest
  refine ⟨x, rest.map item, rfl, ?_, rest, rfl, hrest.congr ?_⟩
  · unfold LogIngestor.consumeCorrelated
    rw [consume_map, htsOf, hconsume]
    rfl
  · intro y hy
    rw [hdone']
    have hsame : y.player = x.player ↔ y = x :=
      ⟨fun h => inj_on_of_nodup_map hnodup hy hx h, fun h => congrArg Arrival.player h⟩
    rw [hsame]

end Queue

/-! ## Every run -/

def ipItem (players : Nat → Player) (x : Arrival) : PendingIp := ⟨(players x.player).ip, x.ts⟩

def joinItem (players : Nat → Player) (x : Arrival) : PendingJoin :=
  ⟨(players x.player).name, x.ts, some (players x.player).ip⟩

/-- Every item in the queues is made of its own player's lines. -/
structure Paired (players : Nat → Player) (s : State) : Prop where
  addrs_nodup : (s.seen.addrs.map Arrival.player).Nodup
  joins_nodup : s.seen.joined.Nodup
  joined_addrs : s.seen.joined ⊆ s.seen.addrs.map Arrival.player
  eoss_joined : s.seen.eoss ⊆ s.seen.joined
  ips : Holds (ipItem players) s.ingestor.joinCorrelationWindowMs s.seen.addrs
    s.ingestor.pendingIps s.seen.joined s.seen.now
  joins : Holds (joinItem players) s.ingestor.joinCorrelationWindowMs s.seen.joins
    s.ingestor.pendingJoins s.seen.eoss s.seen.now

theorem Paired.start {ing : LogIngestor} (hips : ing.pendingIps = [])
    (hjoins : ing.pendingJoins = []) (now : Int) : Paired players (State.start ing now) where
  addrs_nodup := nodup_nil
  joins_nodup := nodup_nil
  joined_addrs := List.Subset.refl _
  eoss_joined := List.Subset.refl _
  ips := ⟨[], hips, Tracks.nil _ now⟩
  joins := ⟨[], hjoins, Tracks.nil _ now⟩

theorem nodup_concat (ts : Int)
    (hnodup : (arrivals.map Arrival.player).Nodup) (hp : p ∉ arrivals.map Arrival.player) :
    ((arrivals ++ [Arrival.mk p ts]).map Arrival.player).Nodup := by
  rw [map_append, map_singleton, nodup_append]
  refine ⟨hnodup, nodup_singleton _, ?_⟩
  intro q hq q' hq' heq
  rw [heq, mem_singleton.mp hq'] at hq
  exact hp hq

theorem mem_concat (ts : Int) (q : Nat) : q ∈ (arrivals ++ [Arrival.mk p ts]).map Arrival.player ↔
      q ∈ arrivals.map Arrival.player ∨ q = p := by
  rw [map_append, mem_append, map_singleton, mem_singleton]

namespace Paired

variable {s : State} {p : Nat} {ts : Int}

section
variable (hpaired : Paired players s) (events : List EventEnvelope) (hle : s.seen.now ≤ ts)
include hpaired hle

theorem addr (hnew : p ∉ s.seen.addrs.map Arrival.player) :
    Paired players ⟨s.ingestor.afterReading ts (.remoteAddr (players p).ip), events,
      { s.seen with addrs := s.seen.addrs ++ [⟨p, ts⟩], now := ts }⟩ where
  addrs_nodup := nodup_concat ts hpaired.addrs_nodup hnew
  __ := hpaired
  joined_addrs _ hq := (mem_concat ts _).mpr (.inl (hpaired.joined_addrs hq))
  ips := hpaired.ips.push hpaired.addrs_nodup hle fun hmem => hnew (hpaired.joined_addrs hmem)
  joins := hpaired.joins.mono hle

theorem join (hnew : p ∉ s.seen.joined)
    (hrecent : Recent s.ingestor.joinCorrelationWindowMs p ts s.seen.addrs)
    (hturn : Turn s.ingestor.joinCorrelationWindowMs p ts s.seen.addrs s.seen.joined) :
    Paired players ⟨s.ingestor.afterReading ts (.join (players p).name), events,
      { s.seen with joins := s.seen.joins ++ [⟨p, ts⟩], now := ts }⟩ := by
  have htsOf : PendingIp.ts ∘ ipItem players = Arrival.ts := rfl
  obtain ⟨x, rest, hplayer, hconsume, hrest⟩ := hpaired.ips.consume htsOf hpaired.addrs_nodup hle
    hnew hrecent hturn (mem_concat ts)
  have hitem : (⟨(players p).name, ts, (some (ipItem players x)).map PendingIp.ip⟩ : PendingJoin) =
      joinItem players ⟨p, ts⟩ := by
    rw [← hplayer]
    rfl
  simp only [LogIngestor.afterReading, hconsume, hitem]
  obtain ⟨x', hx', hplayer', -⟩ := hrecent
  refine ⟨hpaired.addrs_nodup, nodup_concat ts hpaired.joins_nodup hnew, ?_, ?_, hrest, ?_⟩
  · intro q hq
    rcases (mem_concat ts q).mp hq with hq | rfl
    · exact hpaired.joined_addrs hq
    · exact hplayer' ▸ mem_map_of_mem hx'
  · intro q hq
    exact (mem_concat ts q).mpr (.inl (hpaired.eoss_joined hq))
  · exact hpaired.joins.push hpaired.joins_nodup hle fun hmem => hnew (hpaired.eoss_joined hmem)

/-- The event of an EOS line is that of its player. -/
theorem eos (hnew : p ∉ s.seen.eoss)
    (hrecent : Recent s.ingestor.joinCorrelationWindowMs p ts s.seen.joins)
    (hturn : Turn s.ingestor.joinCorrelationWindowMs p ts s.seen.joins s.seen.eoss) : Paired players
        ⟨s.ingestor.afterReading ts (.eos (players p).eosId (players p).steamId64), events,
          { s.seen with eoss := p :: s.seen.eoss, now := ts }⟩ ∧
      ∃ event, s.ingestor.connectedEvent ts (.eos (players p).eosId (players p).steamId64) =
        some event ∧ OfPlayer (players p) event := by
  have hdone (q : Nat) : q ∈ p :: s.seen.eoss ↔ q ∈ s.seen.eoss ∨ q = p := by
    rw [mem_cons, or_comm]
  have htsOf : PendingJoin.ts ∘ joinItem players = Arrival.ts := rfl
  obtain ⟨x, rest, hplayer, hconsume, hrest⟩ := hpaired.joins.consume htsOf hpaired.joins_nodup
    hle hnew hrecent hturn hdone
  simp only [LogIngestor.afterReading, LogIngestor.connectedEvent, hconsume]
  constructor
  · obtain ⟨x', hx', hplayer', -⟩ := hrecent
    refine ⟨hpaired.addrs_nodup, hpaired.joins_nodup, hpaired.joined_addrs, ?_,
      hpaired.ips.mono hle, hrest⟩
    intro q hq
    rcases mem_cons.mp hq with rfl | hq
    · exact hplayer' ▸ mem_map_of_mem hx'
    · exact hpaired.eoss_joined hq
  · refine ⟨_, rfl, ?_⟩
    rw [← hplayer]
    rfl

end

end Paired

theorem step_eq {s s' : State} {e : Entry} (hstep : step s e = some s') :
    s'.ingestor = s.ingestor.afterReading e.line.ts (reading e.line) ∧
      s'.seen = s.seen.note e ∧
      ∀ event ∈ s'.events, event.payload.isPlayerConnected = true → event ∈ s.events ∨
        s.ingestor.connectedEvent e.line.ts (reading e.line) = some event := by
  obtain ⟨hingestor, hevents⟩ := handleMessage_eq s.ingestor e.line
  cases hstep
  refine ⟨hingestor, rfl, ?_⟩
  intro event hmem hconnected
  rcases mem_append.mp hmem with hold | hnew
  · exact .inl hold
  · right
    have hfiltered : event ∈ (s.ingestor.handleMessage e.line).2.filter
        (·.payload.isPlayerConnected) := mem_filter.mpr ⟨hnew, hconnected⟩
    rw [hevents, Option.mem_toList] at hfiltered
    exact hfiltered

/-- Every event about a connection is that of one player who has come to the last line. -/
def OwnEvents (players : Nat → Player) (s : State) : Prop :=
  ∀ event ∈ s.events, event.payload.isPlayerConnected = true →
    ∃ p ∈ s.seen.eoss, OfPlayer (players p) event

theorem paired_step {s s' : State} {e : Entry} (hpaired : Paired players s)
    (hown : OwnEvents players s) (hconnecting : Connecting players s e) (hturn : InTurn s e)
    (hstep : step s e = some s') : Paired players s' ∧ OwnEvents players s' := by
  obtain ⟨ingestor, events, seen⟩ := s'
  obtain ⟨hingestor, hseen, hevents⟩ := step_eq hstep
  subst hingestor hseen
  have hkept (hnone : s.ingestor.connectedEvent e.line.ts (reading e.line) = none) :
      ∀ event ∈ events, event.payload.isPlayerConnected = true →
        ∃ p ∈ s.seen.eoss, OfPlayer (players p) event := by
    intro event hmem hconnected
    rcases hevents event hmem hconnected with hold | hevent
    · exact hown event hold hconnected
    · rw [hnone] at hevent
      cases hevent
  cases e with
  | addr p line =>
    obtain ⟨hreading, hnew⟩ := hconnecting
    simp only [Entry.line, hreading] at hkept ⊢
    exact ⟨hpaired.addr events hturn hnew, hkept rfl⟩
  | join p line =>
    obtain ⟨hreading, hnew, hrecent⟩ := hconnecting
    simp only [Entry.line, hreading] at hkept ⊢
    exact ⟨hpaired.join events hturn.1 hnew hrecent hturn.2, hkept rfl⟩
  | eos p line =>
    obtain ⟨hreading, hnew, hrecent⟩ := hconnecting
    simp only [Entry.line, hreading] at hevents ⊢
    obtain ⟨hafter, event', hevent', hplayer⟩ :=
      hpaired.eos events hturn.1 hnew hrecent hturn.2
    refine ⟨hafter, fun event hmem hconnected => ?_⟩
    rcases hevents event hmem hconnected with hold | hevent
    · obtain ⟨q, hq, hof⟩ := hown event hold hconnected
      exact ⟨q, mem_cons_of_mem p hq, hof⟩
    · rw [hevent'] at hevent
      cases hevent
      exact ⟨p, mem_cons_self, hplayer⟩
  | other line =>
    simp only [Entry.line, show reading line = .other from hconnecting] at hkept ⊢
    exact ⟨⟨hpaired.addrs_nodup, hpaired.joins_nodup, hpaired.joined_addrs,
      hpaired.eoss_joined, hpaired.ips, hpaired.joins⟩, hkept rfl⟩

/-- The lines of connecting players who go through their stages in the order of arrival. -/
def ConnectingInTurn (players : Nat → Player) (s : State) (e : Entry) : Prop :=
  Connecting players s e ∧ InTurn s e

instance (players : Nat → Player) (s : State) (e : Entry) :
    Decidable (ConnectingInTurn players s e) :=
  inferInstanceAs (Decidable (_ ∧ _))

theorem connected_ofPlayer {serverId : JsString} {beaconPort : Nat} {window : Option Int}
    {now : Int} {s : State} (hreach : Reaches step (ConnectingInTurn players)
      (State.start (LogIngestor.create serverId beaconPort window) now) s) :
    OwnEvents players s := by
  have hstart : Paired players (State.start (LogIngestor.create serverId beaconPort window) now) :=
    .start rfl rfl now
  have hinv : Paired players s ∧ OwnEvents players s := by
    induction hreach with
    | refl => exact ⟨hstart, fun _ hmem => absurd hmem not_mem_nil⟩
    | step _ hguard hstep ih => exact paired_step ih.1 ih.2 hguard.1 hguard.2 hstep
  exact hinv.2

/-! ## Two players -/

def playerA : Player :=
  ⟨js "PlayerA", js "aaaaaaaaaaaaaaaaaaaaaaaaaaaaaaaa", js "76561198000000001", js "203.0.113.10"⟩

def playerB : Player :=
  ⟨js "PlayerB", js "bbbbbbbbbbbbbbbbbbbbbbbbbbbbbbbb", js "76561198000000002", js "203.0.113.20"⟩

def twoPlayers : Nat → Player
  | 0 => playerA
  | _ => playerB

def addrOf (p : Nat) (ts : Int) : Entry :=
  .addr p ⟨js "LogNet",
    js "AddClientConnection: Added client connection: [UNetConnection] RemoteAddr: " ++
      (twoPlayers p).ip ++ js ":7787, Name: EOSIpNetConnection_1", ts⟩

def joinOf (p : Nat) (ts : Int) : Entry :=
  .join p ⟨js "LogNet", js "Join succeeded: " ++ (twoPlayers p).name, ts⟩

def eosOf (p : Nat) (ts : Int) : Entry :=
  .eos p ⟨js "LogRedpointEOS", js "EOSNet VoiceChat EOS:" ++ (twoPlayers p).eosId ++ js " Steam:" ++
      (twoPlayers p).steamId64, ts⟩

def twoStart : State := .start (.create (js "s") 15000 none) 0

theorem connected_ofPlayer_interleaved : ∃ s, run step (ConnectingInTurn twoPlayers) twoStart
        [addrOf 0 0, addrOf 1 10, joinOf 0 20, joinOf 1 30, eosOf 0 40, eosOf 1 50] = some s ∧
      s.events.length = 2 ∧ OwnEvents twoPlayers s := by
  have hrun : (run step (ConnectingInTurn twoPlayers) twoStart
      [addrOf 0 0, addrOf 1 10, joinOf 0 20, joinOf 1 30, eosOf 0 40, eosOf 1 50]).any
        (fun s => decide (s.events.length = 2)) = true := by
    decide +kernel
  rw [Option.any_eq_true] at hrun
  obtain ⟨s, hs, htwo⟩ := hrun
  exact ⟨s, hs, of_decide_eq_true htwo, connected_ofPlayer (reaches_of_run .refl hs)⟩

/-- A log with an event that is neither player's. -/
theorem not_ownEvents_of_run {log : List Entry}
    (hrun : (run step (Connecting twoPlayers) twoStart log).any (fun s => s.events.any fun event =>
      event.payload.isPlayerConnected &&
        decide (¬ OfPlayer playerA event ∧ ¬ OfPlayer playerB event)) = true) :
    ∃ s, run step (Connecting twoPlayers) twoStart log = some s ∧ ¬ OwnEvents twoPlayers s := by
  rw [Option.any_eq_true] at hrun
  obtain ⟨s, hs, hany⟩ := hrun
  rw [any_eq_true] at hany
  obtain ⟨event, hmem, hevent⟩ := hany
  rw [Bool.and_eq_true, decide_eq_true_iff] at hevent
  refine ⟨s, hs, fun hown => ?_⟩
  obtain ⟨p, -, hplayer⟩ := hown event hmem hevent.1
  cases p with
  | zero => exact hevent.2.1 hplayer
  | succ p => exact hevent.2.2 hplayer

/-- Both players' lines are complete and in order, but the second one joins first; and the first
player drops before its last line. -/
theorem connected_mixes_players : (∃ s, run step (Connecting twoPlayers) twoStart
        [addrOf 0 0, addrOf 1 10, joinOf 1 20, joinOf 0 30, eosOf 0 40, eosOf 1 50] = some s ∧
      ¬ OwnEvents twoPlayers s) ∧
    ∃ s, run step (Connecting twoPlayers) twoStart
        [addrOf 0 0, joinOf 0 10, addrOf 1 20, joinOf 1 30, eosOf 1 40] = some s ∧
      ¬ OwnEvents twoPlayers s := by
  constructor
  · apply not_ownEvents_of_run
    decide +kernel
  · apply not_ownEvents_of_run
    decide +kernel

end SquadPanel.LogIngest.Parser
