/-
  LayeredAccess.Bus.Basic

  The bus keeps a table of who listens where. A subscription is known by a
  number that is given once; the handlers of a channel stand in the order of
  subscription, and a channel leaves the table with its last handler.
-/
import LayeredAccess.Bus.Action

namespace LayeredAccess

/-- The number of a subscription. -/
structure SubscriptionId where
  number : Nat
  deriving DecidableEq, Inhabited, Repr

namespace SubscriptionId

/-- The number as it appears in diagnostics. -/
def describe (s : SubscriptionId) : String := "SubscriptionId(" ++ toString s.number ++ ")"

end SubscriptionId

/-- A handler on a channel. -/
structure Subscription (η : Type) where
  id : SubscriptionId
  handler : η

/-- The subscriptions of each channel that has some, oldest first. -/
structure Bus (η : Type) where
  listeners : KeyMap Channel (List (Subscription η)) := []
  /-- The number of the next subscription. The count has no end; one of 64 bits goes the same way
  for fewer than `2 ^ 64` subscriptions. -/
  nextNumber : Nat := 0

namespace Bus

variable {η : Type}

/-- The subscriptions of a channel, oldest first. -/
def subscriptions (b : Bus η) (channel : Channel) : List (Subscription η) :=
  (KeyMap.find? b.listeners channel).getD []

/-- Adds a handler to a channel, which is entered in the table if need be. -/
def subscribe (b : Bus η) (channel : Channel) (handler : η) : SubscriptionId × Bus η :=
  let s : Subscription η := ⟨⟨b.nextNumber⟩, handler⟩
  let listeners :=
    if KeyMap.contains b.listeners channel then KeyMap.modify b.listeners channel (· ++ [s])
    else b.listeners ++ [(channel, [s])]
  (s.id, { listeners, nextNumber := b.nextNumber + 1 })

/-- The subscriptions that stay when one ends. -/
def without (id : SubscriptionId) (subscriptions : List (Subscription η)) :
    List (Subscription η) :=
  subscriptions.filter fun s => !decide (s.id = id)

/-- Ends a subscription and drops a channel that is left without any; tells whether the
subscription was live. -/
def unsubscribe (b : Bus η) (id : SubscriptionId) : Bool × Bus η :=
  let kept := KeyMap.mapValues (without id) b.listeners
  (b.listeners.any fun e => decide ((without id e.2).length ≠ e.2.length),
   { b with listeners := kept.filter fun e => !e.2.isEmpty })

/-- The handlers of a channel in the order of subscription. -/
def handlers (b : Bus η) (channel : Channel) : List η := (b.subscriptions channel).map (·.handler)

/-- The number of handlers on a channel. -/
def listenerCount (b : Bus η) (channel : Channel) : Nat := (b.subscriptions channel).length

/-- The channels in the table. -/
def channels (b : Bus η) : List Channel := KeyMap.keys b.listeners

/-- The bus as it appears in diagnostics. -/
def describe (b : Bus η) : String :=
  "ActionBus \x7b channels: " ++ toString b.channels.length ++ " \x7d"

end Bus

end LayeredAccess
