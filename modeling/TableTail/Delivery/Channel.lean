import TableTail.Delivery.Record

/-!
# Channels

A bounded channel for records. The sender fills it whenever the receiver waits, and then rests; once
the receiver is gone, records that are not sent yet cannot be delivered any more.
-/

namespace TableTail

/-- Records on their way: those in the channel, and those the sender still holds. -/
structure Channel where
  capacity : Nat
  queue : List Record
  unsent : List Record
  deriving Repr

namespace Channel

/-- A channel with room for a number of records, at least one, before anything is sent. -/
def start (capacity : Nat) (records : List Record) : Channel := ⟨max capacity 1, [], records⟩

/-- The channel after the sender has filled it. -/
def refill (c : Channel) : Channel :=
  let room := c.capacity - c.queue.length
  ⟨c.capacity, c.queue ++ c.unsent.take room, c.unsent.drop room⟩

/-- The next record, if there is one; the sender fills an empty channel first. -/
def receive (c : Channel) : Option (Record × Channel) :=
  let c := if c.queue.isEmpty then c.refill else c
  match c.queue with
  | [] => none
  | r :: rest => some (r, { c with queue := rest })

/-- The next records, up to a number of them. -/
def receiveMany : Nat → Channel → List Record × Channel
  | 0, c => ([], c)
  | n + 1, c =>
    match c.receive with
    | none => ([], c)
    | some (r, c) =>
      let (rs, c) := receiveMany n c
      (r :: rs, c)

/-- Whether everything was sent, so that the sender does not notice that the receiver is gone. -/
def isSent (c : Channel) : Bool := c.unsent.isEmpty

end Channel

end TableTail
