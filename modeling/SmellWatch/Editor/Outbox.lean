/-! Messages on their way to an editor.

Whoever has something to say leaves it in the outbox; a writer takes one order after the
other. It ends when it is told to stop, or when a message cannot be written because
nobody reads any more. What is left over then is never written. -/

namespace SmellWatch

/-- What the writer has to do. -/
inductive Outbox.Order (α : Type)
  | write (message : α)
  | stop
deriving DecidableEq, Repr

structure Outbox (α : Type) where
  /-- The oldest first. -/
  orders : List (Outbox.Order α) := []
  written : List α := []
  /-- The writer has not ended. -/
  working : Bool := true
  /-- Nobody reads what is written. -/
  muted : Bool := false
deriving Repr

namespace Outbox

variable {α : Type}

/-- Nobody takes an order when the writer has ended. -/
def order (x : Order α) (o : Outbox α) : Outbox α :=
  if o.working then { o with orders := o.orders ++ [x] } else o

def send (message : α) (o : Outbox α) : Outbox α := o.order (.write message)

def sendAll (messages : List α) (o : Outbox α) : Outbox α :=
  messages.foldl (fun o m => o.send m) o

/-- No more is written than what was sent before. -/
def stop (o : Outbox α) : Outbox α := o.order .stop

def mute (o : Outbox α) : Outbox α := { o with muted := true }

/-- The writer has ended. -/
def close (o : Outbox α) : Outbox α := { o with orders := [], working := false }

/-- The writer takes its next order, if there is one. -/
def step (o : Outbox α) : Outbox α :=
  match o.orders with
  | [] => o
  | .write m :: r =>
    if o.muted then o.close else { o with orders := r, written := o.written ++ [m] }
  | .stop :: _ => o.close

/-- The writer takes all orders that there are. -/
def drain (o : Outbox α) : Outbox α := o.orders.foldl (fun o _ => o.step) o

end Outbox

end SmellWatch
