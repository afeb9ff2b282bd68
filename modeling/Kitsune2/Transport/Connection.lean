import Mathlib.Logic.Function.Basic
import Mathlib.Order.Lattice

/-!
# Connection — the life of one iroh connection

A connection starts pending, becomes active once the preflight exchange is done and it holds its
peer's slot, and ends superseded or closed.  This file has the state machine of a connection, what
QUIC tells one end about it, the stages of the two tasks that work on it (the dial that created it
and its reader), and the verdict of a reader that stopped.
-/

namespace Kitsune2
namespace Transport

/-! ## Lifecycle -/

inductive ConnectionState where
  | pending
  | active
  | superseded
  | closed
  deriving DecidableEq, Repr

namespace ConnectionState

/-- May the connection still take or hold a slot? -/
def isLive : ConnectionState → Bool
  | .pending | .active => true
  | .superseded | .closed => false

/-- Terminal states are absorbing: the first one to be set wins. -/
def transitionToTerminal (terminal : ConnectionState) : ConnectionState → ConnectionState
  | .pending | .active => terminal
  | .superseded => .superseded
  | .closed => .closed

def markSuperseded : ConnectionState → ConnectionState :=
  transitionToTerminal .superseded

def markClosed : ConnectionState → ConnectionState :=
  transitionToTerminal .closed

/-- Move from pending to active, and say whether that happened. -/
def activate : ConnectionState → Bool × ConnectionState
  | .pending => (true, .active)
  | s => (false, s)

@[simp]
theorem isLive_markSuperseded (s : ConnectionState) : s.markSuperseded.isLive = false := by
  cases s <;> rfl

@[simp]
theorem isLive_markClosed (s : ConnectionState) : s.markClosed.isLive = false := by
  cases s <;> rfl

theorem markSuperseded_of_isLive {s : ConnectionState} (h : s.isLive = true) :
    s.markSuperseded = .superseded := by
  cases s with
  | pending => rfl
  | active => rfl
  | superseded => cases h
  | closed => cases h

theorem activate_of_isLive {s : ConnectionState} (h : s.isLive = true) : s.activate.2 = .active := by
  cases s with
  | pending => rfl
  | active => rfl
  | superseded => cases h
  | closed => cases h

end ConnectionState

/-! ## What QUIC tells one end -/

inductive CloseCode where
  | unspecified
  | graceful
  | superseded
  deriving DecidableEq, Repr

/-- The connection as one end sees it.  The first close wins: a local close hides a later one of
the remote and the other way around. -/
inductive Link where
  | opened
  | closedLocally (code : CloseCode) (reason : String)
  | closedRemotely (code : CloseCode) (reason : String)
  /-- Torn down by the network, with no application close. -/
  | lost
  deriving DecidableEq, Repr

namespace Link

def close (code : CloseCode) (reason : String) : Link → Link
  | .opened => .closedLocally code reason
  | link => link

/-- The close code and reason the remote sent, when it was the remote that closed. -/
def remoteCloseReason : Link → Option (CloseCode × String)
  | .closedRemotely code reason => some (code, reason)
  | _ => none

theorem close_ne_opened (code : CloseCode) (reason : String) (link : Link) :
    link.close code reason ≠ .opened := by
  cases link <;> simp [close]

end Link

def supersededCloseReason : String := "superseded by preferred connection"

/-! ## The reader's exit -/

/-- Why the reader stopped. -/
structure ReaderExit where
  err : String
  markUnresponsive : Bool
  deriving DecidableEq, Repr

inductive ReaderCleanup where
  | peerGone (markUnresponsive : Bool)
  | graceful (reason : String)
  | superseded
  | inactive
  deriving DecidableEq, Repr

/-- Select the cleanup for a stopped reader. -/
def classifyExit (wasActive wasSuperseded : Bool) (remoteClose : Option (CloseCode × String))
    (markUnresponsive : Bool) : ReaderCleanup :=
  let supersededByRemote :=
    match remoteClose with
    | some (.superseded, _) => true
    | _ => false
  if wasSuperseded || supersededByRemote then .superseded
  else if !wasActive then .inactive
  else
    match remoteClose with
    | some (.graceful, reason) => .graceful reason
    | _ => .peerGone markUnresponsive

theorem classifyExit_of_superseded (wasActive : Bool) (remoteClose : Option (CloseCode × String))
    (markUnresponsive : Bool) :
    classifyExit wasActive true remoteClose markUnresponsive = .superseded := rfl

/-! ## The tasks of one connection -/

/-- Where the reader of a connection stands. -/
inductive ReaderStage (Conn : Type) where
  | notStarted
  /-- Accepting a stream or reading the preflight from it. -/
  | awaiting
  /-- The preflight was passed to the handler; the connection is to claim its slot. -/
  | received
  /-- The slot is claimed; a displaced connection is to be closed. -/
  | displacing (displaced : Option Conn)
  /-- The return preflight is to be sent. -/
  | returning
  | activating
  /-- Reading data frames. -/
  | serving
  | exiting (exit : ReaderExit)
  /-- The slot is given back if it was held. -/
  | removed (wasActive : Bool) (exit : ReaderExit)
  /-- The lifecycle is terminal; the verdict is to be carried out. -/
  | marked (wasActive : Bool) (exit : ReaderExit)
  | finished
  deriving DecidableEq, Repr

/-- Where the dial that created a connection stands. -/
inductive DialStage (Conn : Type) where
  /-- Not dialed by us. -/
  | idle
  | created
  /-- The registry refused the candidate. -/
  | rejected
  | displacing (displaced : Option Conn)
  /-- The preflight is to be written. -/
  | writing
  | failing (err : String)
  | failed
  | done
  deriving DecidableEq, Repr

/-- One end of a connection. -/
structure ConnectionContext (Id Url Conn : Type) where
  /-- The endpoint id that iroh has authenticated. -/
  remoteId : Id
  dialedByUs : Bool
  /-- The URL the dial was made for. -/
  dialedUrl : Option Url
  remoteUrl : Option Url
  preflightSent : Bool
  lifecycle : ConnectionState
  link : Link
  /-- A preflight frame of this end is on the wire. -/
  written : Bool
  reader : ReaderStage Conn
  dial : DialStage Conn

namespace ConnectionContext

variable {Id Url Conn : Type}

/-- The place of a connection that does not exist yet. -/
def unborn (remoteId : Id) : ConnectionContext Id Url Conn :=
  { remoteId := remoteId, dialedByUs := false, dialedUrl := none, remoteUrl := none,
    preflightSent := false, lifecycle := .pending, link := .opened, written := false,
    reader := .notStarted, dial := .idle }

/-- The context of an accepted connection: nothing is known of the remote but its id. -/
def accepted (remoteId : Id) : ConnectionContext Id Url Conn :=
  { unborn remoteId with reader := .awaiting }

/-- The context of a dialed connection; its reader runs before the dial registers it. -/
def dialed (remoteId : Id) (url : Url) : ConnectionContext Id Url Conn :=
  { remoteId := remoteId, dialedByUs := true, dialedUrl := some url, remoteUrl := some url,
    preflightSent := true, lifecycle := .pending, link := .opened, written := false,
    reader := .awaiting, dial := .created }

/-- Lost to a preferred connection, by our own verdict or by the remote's close code. -/
def isSuperseded (ctx : ConnectionContext Id Url Conn) : Bool :=
  decide (ctx.lifecycle = .superseded) ||
    match ctx.link.remoteCloseReason with
    | some (.superseded, _) => true
    | _ => false

def isPreferredConnection [LinearOrder Id] (localId : Id) (ctx : ConnectionContext Id Url Conn) :
    Bool :=
  ctx.dialedByUs == decide (ctx.remoteId < localId)

/-- The reader has given its slot back. -/
def HasLeft (ctx : ConnectionContext Id Url Conn) : Prop :=
  match ctx.reader with
  | .removed _ _ | .marked _ _ | .finished => True
  | _ => False

end ConnectionContext

end Transport
end Kitsune2
