import ScriptRunner.Json.Printer
import ScriptRunner.Task.Record

/-!
# Observers

Observers are told of every change of status. Each one has a mailbox of its own, which stays readable after the observer
has been forgotten. An observer whose mailbox nobody reads any more is forgotten after the next delivery that fails.
-/

namespace ScriptRunner

/-- What is put into a mailbox: a frame as text, or the end of the connection. -/
inductive ObserverMessage where
  | text (frame : String)
  | close
  deriving DecidableEq, Repr, Inhabited

structure Mailbox where
  /-- The messages that have not been read, oldest first. -/
  waiting : List ObserverMessage
  /-- Somebody may still read. -/
  isRead : Bool
  deriving DecidableEq, Repr, Inhabited

/-- A registered observer; mailboxes are numbered in the order in which they are made. -/
structure Observer where
  id : String
  mailbox : Nat
  connectedAt : Int64
  deriving DecidableEq, Repr, Inhabited

structure Broadcaster where
  observers : List Observer
  mailboxes : List Mailbox
  deriving DecidableEq, Repr, Inhabited

namespace Broadcaster

def empty : Broadcaster := ⟨[], []⟩

/-- The number of registered observers. -/
def size (b : Broadcaster) : Nat := b.observers.length

def find? (b : Broadcaster) (id : String) : Option Observer := b.observers.find? fun o => o.id == id

/-- Registers an observer in place of one with the same name and gives the number of its mailbox. -/
def add (b : Broadcaster) (id : String) (now : Int64) : Nat × Broadcaster :=
  let mailbox := b.mailboxes.length
  (mailbox,
    { observers := b.observers.filter (fun o => o.id != id) ++ [⟨id, mailbox, now⟩]
      mailboxes := b.mailboxes ++ [⟨[], true⟩] })

def remove (b : Broadcaster) (id : String) : Broadcaster :=
  { b with observers := b.observers.filter fun o => o.id != id }

/-- Nobody reads the mailbox any more. -/
def abandonMailbox (b : Broadcaster) (mailbox : Nat) : Broadcaster :=
  { b with mailboxes := b.mailboxes.modify mailbox fun m => { m with isRead := false } }

/-- Takes all messages out of a mailbox. -/
def drain (b : Broadcaster) (mailbox : Nat) : List ObserverMessage × Broadcaster :=
  (((b.mailboxes[mailbox]?).map Mailbox.waiting).getD [],
    { b with mailboxes := b.mailboxes.modify mailbox fun m => { m with waiting := [] } })

/-- Nothing can be put into the mailbox any more. -/
def isClosed (b : Broadcaster) (mailbox : Nat) : Bool := b.observers.all fun o => o.mailbox != mailbox

/-- The mailbox of an observer is still read. -/
def isAlive (b : Broadcaster) (o : Observer) : Bool := ((b.mailboxes[o.mailbox]?).map Mailbox.isRead).getD false

/-- Puts messages into a mailbox that is still read. -/
def put (messages : List ObserverMessage) (m : Mailbox) : Mailbox :=
  if m.isRead then { m with waiting := m.waiting ++ messages } else m

/-- Puts messages into the mailboxes of all observers. -/
def send (b : Broadcaster) (messages : List ObserverMessage) : Broadcaster :=
  { b with mailboxes := b.observers.foldl (fun ms o => ms.modify o.mailbox (put messages)) b.mailboxes }

/-- What a delivery came to: how many observers got the frame, and the names of those that could not. -/
structure Delivery where
  delivered : Nat
  failed : List String
  deriving DecidableEq, Repr

/-- Delivers a frame to every observer. -/
def deliver (b : Broadcaster) (frame : ObserverFrame) : Delivery × Broadcaster :=
  (⟨(b.observers.filter b.isAlive).length, (b.observers.filter fun o => !b.isAlive o).map Observer.id⟩,
    b.send [.text frame.json.compact])

/-- Forgets the observers of the given names. -/
def forget (b : Broadcaster) (ids : List String) : Broadcaster := ids.foldl remove b

/-- Delivers a frame to every observer, forgets those that could not get it and counts the others. -/
def publish (b : Broadcaster) (frame : ObserverFrame) : Nat × Broadcaster :=
  let (delivery, b) := b.deliver frame
  (delivery.delivered, b.forget delivery.failed)

/-- Announces the end to every observer and forgets all of them. -/
def shutdown (b : Broadcaster) (now : Int64) : Broadcaster :=
  { b.send [.text (ObserverFrame.close now).json.compact, .close] with observers := [] }

end Broadcaster

end ScriptRunner
