/-
  LayeredAccess.Bus.Delivery

  Handlers that use the bus while they run. A handler is a name and what it
  does to the bus each time it runs. A published action reaches the handlers
  that its channel has at that moment, and what one handler does is finished
  before the next one runs.

  Handlers may go on publishing for ever, so a delivery has a bound.
-/
import LayeredAccess.Agenda
import LayeredAccess.Bus.Basic

namespace LayeredAccess

mutual

/-- Something done to a bus. -/
inductive BusCall where
  | subscribe (channel : Channel) (handler : Handler)
  | unsubscribe (id : SubscriptionId)
  | publish (action : Action)

/-- What listens on a channel: it is recorded under a name, and then makes calls of its own. -/
inductive Handler where
  | mk (name : String) (calls : List BusCall)

end

namespace Handler

/-- The name under which the handler is recorded. -/
def name : Handler → String
  | mk name _ => name

/-- What the handler does each time it runs. -/
def calls : Handler → List BusCall
  | mk _ calls => calls

end Handler

namespace Bus

/-- A bus whose handlers use it, with a record of which handler got which action. -/
structure Live where
  bus : Bus Handler := {}
  record : List (String × Action) := []

/-- What is left to do in a delivery. -/
inductive Task where
  /-- A call that somebody makes. -/
  | call (call : BusCall)
  /-- A handler that is to run. -/
  | run (handler : Handler) (action : Action)

namespace Live

/-- Does one task. A publication becomes the runs of the handlers that the channel has now. -/
def step (l : Live) : Task → Live × List Task
  | .call (.subscribe channel handler) =>
    ({ l with bus := (l.bus.subscribe channel handler).2 }, [])
  | .call (.unsubscribe id) => ({ l with bus := (l.bus.unsubscribe id).2 }, [])
  | .call (.publish action) => (l, (l.bus.handlers action.route).map (.run · action))
  | .run handler action =>
    ({ l with record := l.record ++ [(handler.name, action)] }, handler.calls.map .call)

/-- Publishes an action: everything that follows from it is done, up to a bound. -/
def publish (bound : Nat) (l : Live) (action : Action) : Live :=
  (Agenda.run step bound l [.call (.publish action)]).1

end Live

end Bus

end LayeredAccess
