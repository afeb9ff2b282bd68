import Kitsune2.Transport.Connection

/-!
# Node — one endpoint: its registry, its connections and its steps

The registry maps a peer URL to the connection that is live for it, and every change of the map
happens under its lock.  A run of the transport interleaves the dials, the readers, the close of
displaced connections, disconnects asked for by the user, and what the network and the remote do.
Each step below is one critical section or one effect of the source, so any interleaving of the
tasks is a sequence of them.
-/

namespace Kitsune2
namespace Transport

variable {Id Url Conn : Type}

/-- Calls of the transport handler, with the connection where it matters. -/
inductive HandlerCall (Url Conn : Type) where
  | recvData (conn : Conn) (url : Url)
  | peerDisconnect (url : Url) (reason : String)
  | setUnresponsive (url : Url)
  deriving DecidableEq, Repr

structure Node (Id Url Conn : Type) where
  localId : Id
  /-- The registry's map. -/
  slots : Url → Option Conn
  context : Conn → ConnectionContext Id Url Conn
  /-- Connections taken out by `disconnect` that are still to be closed. -/
  taken : List Conn
  calls : List (HandlerCall Url Conn)

namespace Node

def initial (localId : Id) : Node Id Url Conn :=
  { localId := localId, slots := fun _ => none, context := fun _ => .unborn localId, taken := [],
    calls := [] }

section Operations

variable [DecidableEq Url] [DecidableEq Conn]

def modify (n : Node Id Url Conn) (c : Conn)
    (f : ConnectionContext Id Url Conn → ConnectionContext Id Url Conn) : Node Id Url Conn :=
  { n with context := Function.update n.context c (f (n.context c)) }

def markSuperseded (n : Node Id Url Conn) (c : Conn) : Node Id Url Conn :=
  n.modify c fun ctx => { ctx with lifecycle := ctx.lifecycle.markSuperseded }

def markClosed (n : Node Id Url Conn) (c : Conn) : Node Id Url Conn :=
  n.modify c fun ctx => { ctx with lifecycle := ctx.lifecycle.markClosed }

def close (n : Node Id Url Conn) (c : Conn) (code : CloseCode) (reason : String) :
    Node Id Url Conn :=
  n.modify c fun ctx => { ctx with link := ctx.link.close code reason }

def setReader (n : Node Id Url Conn) (c : Conn) (stage : ReaderStage Conn) : Node Id Url Conn :=
  n.modify c fun ctx => { ctx with reader := stage }

def setDial (n : Node Id Url Conn) (c : Conn) (stage : DialStage Conn) : Node Id Url Conn :=
  n.modify c fun ctx => { ctx with dial := stage }

def setSlot (n : Node Id Url Conn) (peer : Url) (holder : Option Conn) : Node Id Url Conn :=
  { n with slots := Function.update n.slots peer holder }

def call (n : Node Id Url Conn) (c : HandlerCall Url Conn) : Node Id Url Conn :=
  { n with calls := n.calls ++ [c] }

/-! ## The registry -/

variable [LinearOrder Id]

/-- Claim a slot: does the candidate hold it afterwards, and which connection is to be closed? -/
def registerCandidate (n : Node Id Url Conn) (peer : Url) (candidate : Conn) :
    Bool × Option Conn × Node Id Url Conn :=
  if !(n.context candidate).lifecycle.isLive then (false, none, n)
  else
    match n.slots peer with
    | none => (true, none, n.setSlot peer (some candidate))
    | some existing =>
        if existing = candidate then (true, none, n)
        -- a terminal incumbent is evicted
        else if !(n.context existing).lifecycle.isLive then
          (true, some existing, (n.setSlot peer (some candidate)).markSuperseded existing)
        else if (n.context existing).isPreferredConnection n.localId &&
            !(n.context candidate).isPreferredConnection n.localId then
          (false, none, n.markSuperseded candidate)
        else (true, some existing, (n.setSlot peer (some candidate)).markSuperseded existing)

/-- Mark the entry active if it still holds the slot. -/
def activate (n : Node Id Url Conn) (peer : Url) (entry : Conn) : Bool × Node Id Url Conn :=
  if n.slots peer = some entry then
    let activated := (n.context entry).lifecycle.activate
    (activated.1 || decide (activated.2 = .active),
      n.modify entry fun ctx => { ctx with lifecycle := activated.2 })
  else (false, n)

def removeIfCurrent (n : Node Id Url Conn) (peer : Url) (entry : Conn) :
    Bool × Node Id Url Conn :=
  if n.slots peer = some entry then (true, n.setSlot peer none) else (false, n)

/-- `ConnectionContext::disconnect`: close and inform the handler. -/
def disconnect (n : Node Id Url Conn) (c : Conn) (code : CloseCode) (reason : String) :
    Node Id Url Conn :=
  let n := (n.markClosed c).close c code reason
  match (n.context c).remoteUrl with
  | none => n
  | some peer => n.call (.peerDisconnect peer reason)

/-! ## The dial -/

/-- `create_connection_and_context` registers the context it created. -/
def dialRegister (n : Node Id Url Conn) (c : Conn) (url : Url) : Node Id Url Conn :=
  let r := n.registerCandidate url c
  if r.1 then r.2.2.setDial c (.displacing r.2.1) else r.2.2.setDial c .rejected

/-- Close the displaced connection, if any. -/
def closeDisplaced (n : Node Id Url Conn) (displaced : Option Conn) : Node Id Url Conn :=
  match displaced with
  | none => n
  | some d => n.close d .superseded supersededCloseReason

/-- The preflight could not be written. -/
def dialWriteFail (n : Node Id Url Conn) (c : Conn) (url : Url) (err : String) :
    Node Id Url Conn :=
  if (n.context c).isSuperseded then n.setDial c .done
  else (n.call (.setUnresponsive url)).setDial c (.failing err)

/-! ## The reader -/

/-- The connection claims the slot its preflight names. -/
def readerRegister (n : Node Id Url Conn) (c : Conn) (url : Url) : Node Id Url Conn :=
  let r := n.registerCandidate url c
  if r.1 then r.2.2.setReader c (.displacing r.2.1)
  else r.2.2.setReader c (.exiting ⟨supersededCloseReason, true⟩)

/-- After the slot is claimed: the end that was dialed still owes its preflight. -/
def afterDisplacing (ctx : ConnectionContext Id Url Conn) : ReaderStage Conn :=
  if ctx.preflightSent then .activating else .returning

def readerActivate (n : Node Id Url Conn) (c : Conn) (url : Url) : Node Id Url Conn :=
  let r := n.activate url c
  if r.1 then r.2.setReader c .serving
  else r.2.setReader c (.exiting ⟨supersededCloseReason, true⟩)

/-- The first part of the cleanup gives the slot of the last known URL back. -/
def exitRemove (n : Node Id Url Conn) (c : Conn) (exit : ReaderExit) : Node Id Url Conn :=
  match (n.context c).remoteUrl with
  | none => ((n.markClosed c).close c .unspecified exit.err).setReader c .finished
  | some url =>
      let r := n.removeIfCurrent url c
      r.2.setReader c (.removed r.1 exit)

def exitMark (n : Node Id Url Conn) (c : Conn) (wasActive : Bool) (exit : ReaderExit) :
    Node Id Url Conn :=
  match (n.context c).link.remoteCloseReason with
  | some (.superseded, _) => (n.markSuperseded c).setReader c (.marked wasActive exit)
  | _ => (n.markClosed c).setReader c (.marked wasActive exit)

/-- The verdict is carried out. -/
def exitFinish (n : Node Id Url Conn) (c : Conn) (url : Url) (wasActive : Bool)
    (exit : ReaderExit) : Node Id Url Conn :=
  let ctx := n.context c
  match classifyExit wasActive ctx.isSuperseded ctx.link.remoteCloseReason
      exit.markUnresponsive with
  | .graceful reason => (n.disconnect c .graceful reason).setReader c .finished
  | .peerGone mark =>
      let n := if mark then n.call (.setUnresponsive url) else n
      (n.disconnect c .unspecified exit.err).setReader c .finished
  | .superseded => (n.close c .superseded supersededCloseReason).setReader c .finished
  | .inactive => (n.close c .unspecified exit.err).setReader c .finished

end Operations

/-! ## Steps -/

inductive Event (Id Url Conn : Type) where
  | dialed (c : Conn) (remoteId : Id) (url : Url)
  | accepted (c : Conn) (remoteId : Id)
  | dialRegistered (c : Conn) (url : Url)
  | dialRejected (c : Conn)
  | dialDisplaced (c : Conn)
  | dialWritten (c : Conn)
  | dialWriteFailed (c : Conn) (err : String)
  | dialFailedClosed (c : Conn)
  | dialFailedRemoved (c : Conn) (url : Url)
  /-- A preflight naming `url` is read and the handler takes it. -/
  | preflightRead (c : Conn) (url : Url)
  /-- A preflight naming `url` is read and the handler refuses it. -/
  | preflightRefused (c : Conn) (url : Url) (exit : ReaderExit)
  | readFailed (c : Conn) (err : String)
  | readerRegistered (c : Conn) (url : Url)
  | readerDisplaced (c : Conn)
  | returnSent (c : Conn)
  | returnFailed (c : Conn) (exit : ReaderExit)
  | readerActivated (c : Conn) (url : Url)
  | dataRead (c : Conn) (url : Url)
  | exitRemoved (c : Conn)
  | exitMarked (c : Conn)
  | exitFinished (c : Conn)
  | remoteClosed (c : Conn) (code : CloseCode) (reason : String)
  | connectionLost (c : Conn)
  /-- The user's `disconnect` takes the slot's connection. -/
  | slotTaken (url : Url)
  /-- The user's `disconnect` closes what it has taken. -/
  | takenClosed (c : Conn) (reason : String)
  /-- A send gave up waiting for the connection that replaces this one. -/
  | sendGaveUp (url : Url) (c : Conn)
  deriving DecidableEq, Repr

section Steps

variable [DecidableEq Url] [DecidableEq Conn] [LinearOrder Id]

/-- One step of the transport. -/
inductive Step (n : Node Id Url Conn) : Event Id Url Conn → Node Id Url Conn → Prop
  | dialed (c : Conn) (remoteId : Id) (url : Url) (hreader : (n.context c).reader = .notStarted) :
      Step n (.dialed c remoteId url) (n.modify c fun _ => .dialed remoteId url)
  | accepted (c : Conn) (remoteId : Id) (hreader : (n.context c).reader = .notStarted) :
      Step n (.accepted c remoteId) (n.modify c fun _ => .accepted remoteId)
  | dialRegistered (c : Conn) (url : Url) (hdial : (n.context c).dial = .created)
      (hurl : (n.context c).dialedUrl = some url) :
      Step n (.dialRegistered c url) (n.dialRegister c url)
  | dialRejected (c : Conn) (hdial : (n.context c).dial = .rejected) :
      Step n (.dialRejected c)
        (((n.markSuperseded c).close c .superseded supersededCloseReason).setDial c .done)
  | dialDisplaced (c : Conn) (displaced : Option Conn)
      (hdial : (n.context c).dial = .displacing displaced) :
      Step n (.dialDisplaced c) ((n.closeDisplaced displaced).setDial c .writing)
  | dialWritten (c : Conn) (hdial : (n.context c).dial = .writing)
      (hlink : (n.context c).link = .opened) :
      Step n (.dialWritten c) (n.modify c fun ctx => { ctx with written := true, dial := .done })
  | dialWriteFailed (c : Conn) (url : Url) (err : String) (hdial : (n.context c).dial = .writing)
      (hurl : (n.context c).dialedUrl = some url) :
      Step n (.dialWriteFailed c err) (n.dialWriteFail c url err)
  | dialFailedClosed (c : Conn) (err : String) (hdial : (n.context c).dial = .failing err) :
      Step n (.dialFailedClosed c)
        (((n.markClosed c).close c .unspecified err).setDial c .failed)
  | dialFailedRemoved (c : Conn) (url : Url) (hdial : (n.context c).dial = .failed)
      (hurl : (n.context c).dialedUrl = some url) :
      Step n (.dialFailedRemoved c url) ((n.removeIfCurrent url c).2.setDial c .done)
  | preflightRead (c : Conn) (url : Url) (hreader : (n.context c).reader = .awaiting) :
      Step n (.preflightRead c url)
        ((n.modify c fun ctx => { ctx with remoteUrl := some url, reader := .received }).call
          (.recvData c url))
  | preflightRefused (c : Conn) (url : Url) (exit : ReaderExit)
      (hreader : (n.context c).reader = .awaiting) :
      Step n (.preflightRefused c url exit)
        ((n.modify c fun ctx => { ctx with remoteUrl := some url, reader := .exiting exit }).call
          (.recvData c url))
  | readFailed (c : Conn) (err : String)
      (hreader : (n.context c).reader = .awaiting ∨
        (n.context c).reader = .serving ∧ (n.context c).link ≠ .opened) :
      Step n (.readFailed c err) (n.setReader c (.exiting ⟨err, true⟩))
  | readerRegistered (c : Conn) (url : Url) (hreader : (n.context c).reader = .received)
      (hurl : (n.context c).remoteUrl = some url) :
      Step n (.readerRegistered c url) (n.readerRegister c url)
  | readerDisplaced (c : Conn) (displaced : Option Conn)
      (hreader : (n.context c).reader = .displacing displaced) :
      Step n (.readerDisplaced c)
        ((n.closeDisplaced displaced).setReader c (afterDisplacing (n.context c)))
  | returnSent (c : Conn) (hreader : (n.context c).reader = .returning)
      (hlink : (n.context c).link = .opened) :
      Step n (.returnSent c)
        (n.modify c fun ctx =>
          { ctx with written := true, preflightSent := true, reader := .activating })
  | returnFailed (c : Conn) (exit : ReaderExit) (hreader : (n.context c).reader = .returning) :
      Step n (.returnFailed c exit) (n.setReader c (.exiting exit))
  | readerActivated (c : Conn) (url : Url) (hreader : (n.context c).reader = .activating)
      (hurl : (n.context c).remoteUrl = some url) :
      Step n (.readerActivated c url) (n.readerActivate c url)
  | dataRead (c : Conn) (url : Url) (hreader : (n.context c).reader = .serving)
      (hurl : (n.context c).remoteUrl = some url) :
      Step n (.dataRead c url) (n.call (.recvData c url))
  | exitRemoved (c : Conn) (exit : ReaderExit) (hreader : (n.context c).reader = .exiting exit) :
      Step n (.exitRemoved c) (n.exitRemove c exit)
  | exitMarked (c : Conn) (wasActive : Bool) (exit : ReaderExit)
      (hreader : (n.context c).reader = .removed wasActive exit) :
      Step n (.exitMarked c) (n.exitMark c wasActive exit)
  | exitFinished (c : Conn) (url : Url) (wasActive : Bool) (exit : ReaderExit)
      (hreader : (n.context c).reader = .marked wasActive exit)
      (hurl : (n.context c).remoteUrl = some url) :
      Step n (.exitFinished c) (n.exitFinish c url wasActive exit)
  | remoteClosed (c : Conn) (code : CloseCode) (reason : String)
      (hlink : (n.context c).link = .opened) :
      Step n (.remoteClosed c code reason)
        (n.modify c fun ctx => { ctx with link := .closedRemotely code reason })
  | connectionLost (c : Conn) (hlink : (n.context c).link = .opened) :
      Step n (.connectionLost c) (n.modify c fun ctx => { ctx with link := .lost })
  | slotTaken (c : Conn) (url : Url) (hslot : n.slots url = some c) :
      Step n (.slotTaken url) { n.setSlot url none with taken := c :: n.taken }
  | takenClosed (c : Conn) (reason : String) (htaken : c ∈ n.taken) :
      Step n (.takenClosed c reason)
        { n.disconnect c .graceful reason with taken := n.taken.erase c }
  | sendGaveUp (url : Url) (c : Conn) : Step n (.sendGaveUp url c) (n.removeIfCurrent url c).2

/-- The states of runs of an endpoint in which every step meets a condition. -/
inductive RunWhere (ok : Node Id Url Conn → Event Id Url Conn → Prop) (localId : Id) :
    Node Id Url Conn → Prop
  | initial : RunWhere ok localId (initial localId)
  | step {n n' : Node Id Url Conn} {e : Event Id Url Conn} (h : RunWhere ok localId n)
      (hstep : Step n e n') (hok : ok n e) : RunWhere ok localId n'

theorem RunWhere.mono {ok ok' : Node Id Url Conn → Event Id Url Conn → Prop} {localId : Id}
    {n : Node Id Url Conn} (h : RunWhere ok localId n) (himp : ∀ n e, ok n e → ok' n e) :
    RunWhere ok' localId n := by
  induction h with
  | initial => exact .initial
  | step _ hstep hok ih => exact .step ih hstep (himp _ _ hok)

/-- The states the transport of an endpoint can reach. -/
def Reachable (localId : Id) : Node Id Url Conn → Prop :=
  RunWhere (fun _ _ => True) localId

end Steps

end Node

end Transport
end Kitsune2
