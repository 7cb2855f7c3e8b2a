import OmniRealtime.Lib.System

/-!
# The legacy router

`vl_legacy_adapter/adapter/router.py`: clients that are bound to one of several upstream adapters. A
client's handler picks an upstream, connects to it, counts itself there, and waits for the first
reply; it goes on to the next one, or pumps until either side ends.

One step is what a handler runs between two awaits, so it begins with the end of an await. A handler
may be cancelled at each of them.

1. `pick`, `tryNext`: the choice of the upstream.
2. `onReply`: the reply to the `start` message, by its content.
3. `routerStep`, `routerSystem`: the handlers of all clients.
-/

namespace OmniRealtime

structure LegacyUpstream where
  capacity : ℤ
  active : ℤ := 0
  deriving DecidableEq, Repr

def LegacyUpstream.free (up : LegacyUpstream) : ℤ := up.capacity - up.active

/-! ## Replies -/

def busySubstring : String := "realtime session is already active"

/-- The `message` of an error: a text, something that `in` looks through, or neither. -/
inductive ReplyMessage
  | text (text : String)
  | items (items : List String)
  | scalar
  deriving DecidableEq, Repr

/-- `BUSY_SUBSTRING in message`; `none` is the `TypeError`. -/
def ReplyMessage.busy : ReplyMessage → Option Bool
  | .text content => some (busySubstring.toList <:+: content.toList)
  | .items contents => some (busySubstring ∈ contents)
  | .scalar => none

/-- How the wait for a reply ends. -/
inductive UpstreamReply
  | bytes
  /-- No JSON. -/
  | malformed
  /-- JSON that is no object. -/
  | scalar
  | ready
  | error (message : ReplyMessage)
  | other
  /-- A timeout, or the socket is closed. -/
  | failed
  deriving DecidableEq, Repr

inductive ReplyVerdict
  /-- The loop goes on. -/
  | ignored
  | bound
  | busy
  /-- One of the exceptions that `_try_upstream` lists. -/
  | unavailable
  /-- An `AttributeError` or a `TypeError`, which it does not list. -/
  | raised
  deriving DecidableEq, Repr

/-- The body of the loop of `_try_upstream`. -/
def UpstreamReply.verdict : UpstreamReply → ReplyVerdict
  | .bytes | .other => .ignored
  | .malformed | .failed => .unavailable
  | .scalar => .raised
  | .ready => .bound
  | .error message =>
    match message.busy with
    | some true => .busy
    | some false => .bound
    | none => .raised

/-! ## The state -/

/-- What the handler of a client waits for; `tried` are the upstreams that it has picked. -/
inductive ClientPhase
  | connecting (up : ℕ) (tried : List ℕ)
  | starting (up : ℕ) (tried : List ℕ)
  | receiving (up : ℕ) (tried : List ℕ)
  /-- For the socket of a probe that was rejected or has failed to close. -/
  | closingProbe (tried : List ℕ)
  /-- For the first reply to reach the client. -/
  | replying (up : ℕ)
  | pumping (up : ℕ)
  | closingClient
  | closingUpstream
  | refusing
  | gone
  deriving DecidableEq, Repr

/-- `openSockets` are the upstream sockets of the client that nobody has closed. -/
structure RoutedClient where
  phase : ClientPhase
  openSockets : List ℕ := []
  deriving DecidableEq, Repr

structure LegacyRouter where
  upstreams : List LegacyUpstream
  rrCounter : ℕ := 0
  clients : List RoutedClient := []
  deriving DecidableEq, Repr

namespace LegacyRouter

variable (s : LegacyRouter)

def setClient (n : ℕ) (client : RoutedClient) : LegacyRouter :=
  { s with clients := s.clients.set n client }

/-- `up.active += change`. -/
def count (up : ℕ) (change : ℤ) : LegacyRouter :=
  { s with upstreams := s.upstreams.modify up fun u => { u with active := u.active + change } }

/-! ## Binding -/

def activeOf (up : ℕ) : ℤ := (s.upstreams[up]?).elim 0 LegacyUpstream.active

/-- The upstreams with free capacity that were not tried. -/
def candidates (tried : List ℕ) : List ℕ :=
  (List.range s.upstreams.length).filter fun up =>
    (s.upstreams[up]?).any (fun u => 0 < u.free) && up ∉ tried

/-- `pick`, but for the counter. -/
def pick (tried : List ℕ) : Option ℕ :=
  let cands := s.candidates tried
  let least := cands.filter fun up => cands.all fun other => s.activeOf up ≤ s.activeOf other
  least[s.rrCounter % least.length]?

/-- The loop of `bind_upstream`, up to the next `connect`, or to the refusal of the client. -/
def tryNext (n : ℕ) (tried : List ℕ) : LegacyRouter :=
  if tried.length < s.upstreams.length then
    match s.pick tried with
    | some up =>
      { s with rrCounter := s.rrCounter + 1 }.setClient n
        { phase := .connecting up (tried ++ [up]) }
    | none => s.setClient n { phase := .refusing }
  else s.setClient n { phase := .refusing }

/-- A socket to the upstream is open, and the client is counted. -/
def connected (n up : ℕ) (tried : List ℕ) : LegacyRouter :=
  (s.count up 1).setClient n { phase := .starting up tried, openSockets := [up] }

/-- A probe is given up; its socket is being closed. -/
def dropProbe (n up : ℕ) (tried : List ℕ) : LegacyRouter :=
  (s.count up (-1)).setClient n { phase := .closingProbe tried }

/-- The handler ends, and leaves what it has not closed. -/
def abandon (n : ℕ) (client : RoutedClient) : LegacyRouter :=
  s.setClient n { client with phase := .gone }

def onReply (n up : ℕ) (tried : List ℕ) (client : RoutedClient) (reply : UpstreamReply) :
    LegacyRouter :=
  match reply.verdict with
  | .ignored => s
  | .bound => s.setClient n { client with phase := .replying up }
  | .busy | .unavailable => s.dropProbe n up tried
  | .raised => s.abandon n client

/-- A `CancelledError` at the await of the handler. Only the `finally` around the pumps sees it. -/
def onCancel (n : ℕ) (client : RoutedClient) : LegacyRouter :=
  match client.phase with
  | .pumping up => (s.count up (-1)).setClient n { client with phase := .closingClient }
  | _ => s.abandon n client

end LegacyRouter

/-! ## Steps -/

inductive RouterEvent
  /-- A client has sent its `start` message. -/
  | start
  | connected (n : ℕ) (ok : Bool)
  | startSent (n : ℕ) (ok : Bool)
  | reply (n : ℕ) (reply : UpstreamReply)
  | probeClosed (n : ℕ)
  /-- The first reply is sent to the client, or cannot be. -/
  | replied (n : ℕ) (ok : Bool)
  /-- One of the pumps is done. -/
  | pumpEnds (n : ℕ)
  | clientClosed (n : ℕ)
  | upstreamClosed (n : ℕ)
  | refused (n : ℕ)
  | cancel (n : ℕ)
  deriving DecidableEq, Repr

def routerStep (s : LegacyRouter) : RouterEvent → Option LegacyRouter
  | .start =>
    some (LegacyRouter.tryNext { s with clients := s.clients ++ [{ phase := .refusing }] }
      s.clients.length [])
  | .connected n ok => (s.clients[n]?).bind fun client =>
    match client.phase with
    | .connecting up tried => some (if ok then s.connected n up tried else s.tryNext n tried)
    | _ => none
  | .startSent n ok => (s.clients[n]?).bind fun client =>
    match client.phase with
    | .starting up tried =>
      some (if ok then s.setClient n { client with phase := .receiving up tried }
        else s.dropProbe n up tried)
    | _ => none
  | .reply n reply => (s.clients[n]?).bind fun client =>
    match client.phase with
    | .receiving up tried => some (s.onReply n up tried client reply)
    | _ => none
  | .probeClosed n => (s.clients[n]?).bind fun client =>
    match client.phase with
    | .closingProbe tried => some (s.tryNext n tried)
    | _ => none
  | .replied n ok => (s.clients[n]?).bind fun client =>
    match client.phase with
    | .replying up =>
      some (if ok then s.setClient n { client with phase := .pumping up }
        else (s.count up (-1)).setClient n { phase := .closingUpstream })
    | _ => none
  | .pumpEnds n => (s.clients[n]?).bind fun client =>
    match client.phase with
    | .pumping up => some ((s.count up (-1)).setClient n { client with phase := .closingClient })
    | _ => none
  | .clientClosed n => (s.clients[n]?).bind fun client =>
    match client.phase with
    | .closingClient => some (s.setClient n { phase := .closingUpstream })
    | _ => none
  | .upstreamClosed n => (s.clients[n]?).bind fun client =>
    match client.phase with
    | .closingUpstream => some (s.abandon n client)
    | _ => none
  | .refused n => (s.clients[n]?).bind fun client =>
    match client.phase with
    | .refusing => some (s.abandon n client)
    | _ => none
  | .cancel n => (s.clients[n]?).bind fun client =>
    match client.phase with
    | .gone => none
    | _ => some (s.onCancel n client)

/-- A router that nobody has come to. -/
def routerSystem (capacities : List ℤ) : System LegacyRouter RouterEvent :=
  .ofFun (fun s => s = { upstreams := capacities.map fun capacity => { capacity := capacity } })
    routerStep

end OmniRealtime
