/-
  LayeredAccess.Proofs.Bus.Nesting

  Deliveries that nest. While a handler runs it may do anything to the bus, and
  publish again; so deliveries stand inside one another, the innermost first
  (`Dispatch`), and what runs next is up to the handlers.

  `Calls` and `Runs` say what an orderly history is: a call to publish is
  followed by one run of each handler of the audience that the channel has then,
  in the order of subscription, and a run is over when the calls that are made
  in it are. Every history of a bus is of that form, as far as it has come
  (`Course`), and `delivery_exact` says so along with what the bus tells of itself. The
  deliveries with a bound are such histories when they come to an end
  (`exists_moves`).
-/
import LayeredAccess.Bus.Delivery
import LayeredAccess.Proofs.Agenda
import LayeredAccess.Proofs.Bus.Audience
import Mathlib.Data.List.Induction

namespace LayeredAccess.Bus

variable {η : Type}

/-! ## A bus in use -/

/-- A delivery one of whose handlers is running, with those that are still to run. -/
structure Delivery (η : Type) where
  action : Action
  waiting : List η

/-- A bus with the deliveries that go on, innermost first, and what has happened so far. -/
structure Dispatch (η : Type) where
  bus : Bus η := {}
  ongoing : List (Delivery η) := []
  history : History η := []

/-- What the handler that runs does next; if none does, whoever uses the bus. -/
inductive Move (η : Type) where
  | subscribe (channel : Channel) (handler : η)
  | unsubscribe (id : SubscriptionId)
  | publish (action : Action)
  /-- The handler returns. -/
  | finish

namespace Dispatch

def note (d : Dispatch η) (e : Entry η) : Dispatch η := { d with history := d.history ++ [e] }

/-- Runs the next of the handlers of a delivery, or ends the delivery. -/
def proceed (d : Dispatch η) (action : Action) : List η → Dispatch η
  | [] => d.note .delivered
  | h :: rest => { d.note (.started h action) with ongoing := ⟨action, rest⟩ :: d.ongoing }

def step (d : Dispatch η) : Move η → Dispatch η
  | .subscribe c h =>
    { d.note (.subscribed (d.bus.subscribe c h).1 c h) with bus := (d.bus.subscribe c h).2 }
  | .unsubscribe id =>
    { d.note (.unsubscribed id (d.bus.unsubscribe id).1) with bus := (d.bus.unsubscribe id).2 }
  | .publish a => (d.note (.published a)).proceed a (d.bus.handlers a.route)
  | .finish =>
    match d.ongoing with
    | [] => d
    | now :: outer => { d.note .returned with ongoing := outer }.proceed now.action now.waiting

def run (d : Dispatch η) (moves : List (Move η)) : Dispatch η := moves.foldl step d

end Dispatch

/-! ## Orderly histories -/

mutual

/-- Calls that are made one after the other, each with everything that follows from it. -/
inductive Calls : History η → History η → Prop
  | nil {before : History η} : Calls before []
  | subscribed {before calls : History η} {id : SubscriptionId} {c : Channel} {h : η}
    (hcalls : Calls before calls) : Calls before (calls ++ [.subscribed id c h])
  | unsubscribed {before calls : History η} {id : SubscriptionId} {live : Bool}
    (hcalls : Calls before calls) : Calls before (calls ++ [.unsubscribed id live])
  /-- The handlers that listen when an action is published run, and no others. -/
  | published {before calls runs : History η} {a : Action} (hcalls : Calls before calls)
    (hruns : Runs a ((audience a.route (before ++ calls)).map (·.handler))
      (before ++ calls ++ [.published a]) runs) :
    Calls before (calls ++ (.published a :: runs ++ [.delivered]))

/-- Handlers run on an action, each once and one after the other. -/
inductive Runs : Action → List η → History η → History η → Prop
  | nil {a : Action} {before : History η} : Runs a [] before []
  | next {a : Action} {hs : List η} {h : η} {before runs calls : History η}
    (hruns : Runs a hs before runs) (hcalls : Calls (before ++ runs ++ [.started h a]) calls) :
    Runs a (hs ++ [h]) before (runs ++ (.started h a :: calls ++ [.returned]))

end

/-- A history that is orderly as far as it has come: of each delivery that goes on some handlers
have run, one is running, and the others wait. -/
inductive Course : List (Delivery η) → History η → Prop
  | idle {history : History η} (hcalls : Calls [] history) : Course [] history
  | running {outer : List (Delivery η)} {a : Action} {h : η} {hs rest : List η}
    {before runs calls : History η} (houter : Course outer before)
    (haudience : (audience a.route before).map (·.handler) = hs ++ h :: rest)
    (hruns : Runs a hs (before ++ [.published a]) runs)
    (hcalls : Calls (before ++ .published a :: runs ++ [.started h a]) calls) :
    Course (⟨a, rest⟩ :: outer) (before ++ .published a :: runs ++ .started h a :: calls)

/-- A call that is over, with everything that follows from it, leaves the deliveries that go on as
they are. -/
theorem Course.call {ongoing : List (Delivery η)} {history more : History η}
    (h : Course ongoing history)
    (hmore : ∀ before calls, before ++ calls = history → Calls before calls →
      Calls before (calls ++ more)) : Course ongoing (history ++ more) := by
  cases h with
  | idle hcalls => exact .idle (hmore [] history rfl hcalls)
  | @running outer a h hs rest before runs calls houter haudience hruns hcalls =>
    have hwhole := hmore _ calls (by simp) hcalls
    have hcourse := Course.running houter haudience hruns hwhole
    rwa [← List.cons_append, ← List.append_assoc] at hcourse

/-! ## Every run is orderly -/

namespace Dispatch

variable {d : Dispatch η}

/-- The next handler of a delivery runs, or the delivery is over. -/
theorem course_proceed {a : Action} {before runs : History η} {hs rest : List η}
    (houter : Course d.ongoing before)
    (haudience : (audience a.route before).map (·.handler) = hs ++ rest)
    (hruns : Runs a hs (before ++ [.published a]) runs)
    (hhistory : d.history = before ++ .published a :: runs) :
    Course (d.proceed a rest).ongoing (d.proceed a rest).history := by
  cases rest with
  | nil =>
    have hover : Course d.ongoing (before ++ (.published a :: runs ++ [.delivered])) := by
      refine houter.call fun earlier calls hsplit hcalls => hcalls.published ?_
      rw [hsplit, haudience, List.append_nil]
      exact hruns
    rw [← List.append_assoc, ← hhistory] at hover
    exact hover
  | cons h rest =>
    have hnow := Course.running houter haudience hruns .nil
    rw [← hhistory] at hnow
    exact hnow

theorem course_step (h : Course d.ongoing d.history) (follows : Follows d.bus d.history)
    (move : Move η) : Course (d.step move).ongoing (d.step move).history := by
  -- Calls from outside only add what they have done; the others begin or end a handler.
  cases move with
  | subscribe c k => exact h.call fun _ _ _ hcalls => hcalls.subscribed
  | unsubscribe id => exact h.call fun _ _ _ hcalls => hcalls.unsubscribed
  | publish a =>
    have haudience : (audience a.route d.history).map (·.handler) =
        [] ++ d.bus.handlers a.route := by
      rw [List.nil_append, ← follows.subscriptions_eq]
      rfl
    exact course_proceed (d := d.note (.published a)) h haudience .nil rfl
  | finish =>
    obtain ⟨b, ongoing, history⟩ := d
    cases h with
    | idle hcalls => exact .idle hcalls
    -- The next handler of the innermost action runs, or the action is over.
    | @running outer a k hs rest before runs calls houter haudience hruns hcalls =>
      have hrun : Calls (before ++ [.published a] ++ runs ++ [.started k a]) calls := by
        simpa using hcalls
      refine course_proceed houter ?_ (hruns.next hrun) (by simp [note])
      exact haudience.trans (List.append_cons hs k rest)

theorem follows_proceed (a : Action) (hs : List η) (h : Follows d.bus d.history) :
    Follows (d.proceed a hs).bus (d.proceed a hs).history := by
  cases hs with
  | nil => exact h.pass (e := .delivered) trivial
  | cons k rest => exact h.pass (e := .started k a) trivial

theorem follows_step (h : Follows d.bus d.history) (move : Move η) :
    Follows (d.step move).bus (d.step move).history := by
  cases move with
  | subscribe c k => exact h.subscribe c k
  | unsubscribe id => exact h.unsubscribe id
  | publish a =>
    exact follows_proceed (d := d.note (.published a)) a _ (h.pass (e := .published a) trivial)
  | finish =>
    obtain ⟨b, ongoing, history⟩ := d
    cases ongoing with
    | nil => exact h
    | cons now outer =>
      exact follows_proceed (d := ⟨b, outer, history ++ [.returned]⟩) now.action now.waiting
        (h.pass (e := .returned) trivial)

/-- What holds of a bus in use at any moment. -/
structure Exact (d : Dispatch η) : Prop where
  /-- Each call to publish runs the handlers that listen at that moment, one after the other. -/
  course : Course d.ongoing d.history
  /-- A subscription is ended once. -/
  answered : Answered d.history
  /-- No number is given twice. -/
  made_nodup : (made d.history).Nodup
  listenerCount_eq : ∀ c, d.bus.listenerCount c = (audience c d.history).length
  channels_nodup : d.bus.channels.Nodup
  mem_channels_iff : ∀ c, c ∈ d.bus.channels ↔ audience c d.history ≠ []

theorem run_concat (moves : List (Move η)) (move : Move η) :
    d.run (moves ++ [move]) = (d.run moves).step move := by
  rw [run, List.foldl_append]
  rfl

theorem run_append (moves more : List (Move η)) :
    d.run (moves ++ more) = (d.run moves).run more := List.foldl_append

theorem run_cons (move : Move η) (moves : List (Move η)) :
    d.run (move :: moves) = (d.step move).run moves := rfl

/-- When the handler that runs returns, the next one of its delivery takes its place. -/
theorem step_finish {a : Action} {waiting : List η} {outer : List (Delivery η)}
    (h : d.ongoing = ⟨a, waiting⟩ :: outer) :
    d.step .finish = { d.note .returned with ongoing := outer }.proceed a waiting := by
  rw [step, h]

/-- The table follows the history, and the history is orderly, whatever is done to the bus. -/
theorem follows_run (moves : List (Move η)) :
    Follows (run {} moves).bus (run {} moves).history ∧
      Course (run {} moves).ongoing (run {} moves).history := by
  induction moves using List.reverseRecOn with
  | nil => exact ⟨follows_empty, .idle .nil⟩
  | append_singleton moves move ih =>
    rw [run_concat]
    exact ⟨follows_step ih.1 move, course_step ih.2 ih.1 move⟩

theorem exact_run (moves : List (Move η)) : (run {} moves).Exact := by
  obtain ⟨follows, hcourse⟩ := follows_run moves
  refine ⟨hcourse, follows.answered, follows.made_nodup, fun c => ?_, follows.nodup,
    fun c => follows.mem_channels_iff c⟩
  rw [← follows.subscriptions_eq]
  rfl

end Dispatch

/-! ## Deliveries with a bound -/

/-- Which handler got which action, as handlers are recorded. -/
def recorded (history : History Handler) : List (String × Action) :=
  history.filterMap fun
    | .started h a => some (h.name, a)
    | _ => none

/-- A bus in use has come from one state to another by calls that are over, and has recorded what
a live bus has. -/
structure Reaches (d d' : Dispatch Handler) (l l' : Live) : Prop where
  bus_eq : d'.bus = l'.bus
  ongoing_eq : d'.ongoing = d.ongoing
  goes_on : ∃ more, d'.history = d.history ++ more ∧ l'.record = l.record ++ recorded more

theorem recorded_append (xs ys : History Handler) :
    recorded (xs ++ ys) = recorded xs ++ recorded ys := List.filterMap_append

theorem Reaches.trans {d d' d'' : Dispatch Handler} {l l' l'' : Live} (h : Reaches d d' l l')
    (h' : Reaches d' d'' l' l'') : Reaches d d'' l l'' := by
  obtain ⟨more, hhistory, hrecord⟩ := h.goes_on
  obtain ⟨more', hhistory', hrecord'⟩ := h'.goes_on
  refine ⟨h'.bus_eq, h'.ongoing_eq.trans h.ongoing_eq, more ++ more', ?_, ?_⟩
  · rw [hhistory', hhistory, List.append_assoc]
  · rw [hrecord', hrecord, recorded_append, List.append_assoc]

/-- One more thing that happens, and is recorded if it is a run. -/
theorem reaches_note {d d' : Dispatch Handler} {l l' : Live} {e : Entry Handler}
    (hbus : d'.bus = l'.bus) (hongoing : d'.ongoing = d.ongoing)
    (hhistory : d'.history = d.history ++ [e]) (hrecord : l'.record = l.record ++ recorded [e]) :
    Reaches d d' l l' :=
  ⟨hbus, hongoing, [e], hhistory, hrecord⟩

theorem reaches_self {d : Dispatch Handler} {l : Live} (hbus : d.bus = l.bus) : Reaches d d l l :=
  ⟨hbus, rfl, [], (List.append_nil _).symm, (List.append_nil _).symm⟩

/-- A handler that has returned has run within its delivery. -/
theorem Reaches.returned {d e : Dispatch Handler} {l l' : Live} {a : Action} {k : Handler}
    {rest : List Handler} (h : Reaches (d.proceed a (k :: rest)) e
      { l with record := l.record ++ [(k.name, a)] } l') :
    Reaches d { e.note .returned with ongoing := d.ongoing } l l' := by
  obtain ⟨during, hhistory, hrecord⟩ := h.goes_on
  refine ⟨h.bus_eq, rfl, .started k a :: during ++ [.returned], ?_, ?_⟩
  · show e.history ++ [.returned] = _
    rw [hhistory, Dispatch.proceed, Dispatch.note]
    simp
  · have hduring : recorded (.started k a :: during ++ [.returned]) =
        (k.name, a) :: recorded during := by
      rw [recorded_append]
      exact List.append_nil _
    rw [hrecord, hduring]
    exact (List.append_cons l.record (k.name, a) (recorded during)).symm

/-- A live bus that is used from where a bus in use stands: the calls that it makes, or the runs of
handlers, are moves of that bus. -/
theorem exists_moves_of_finishes {l l' : Live} {tasks : List Task}
    (h : Agenda.Finishes Live.step l tasks l') :
    (∀ calls : List BusCall, tasks = calls.map .call → ∀ d : Dispatch Handler, d.bus = l.bus →
      ∃ moves, Reaches d (d.run moves) l l') ∧
    (∀ (a : Action) (hs : List Handler), tasks = hs.map (.run · a) →
      ∀ d : Dispatch Handler, d.bus = l.bus →
      ∃ moves, Reaches d ((d.proceed a hs).run moves) l l') := by
  -- By the order in which tasks are finished: what a task leaves comes before the next task.
  induction h with
  | @nil l =>
    constructor
    · intro calls _ d hd
      exact ⟨[], reaches_self hd⟩
    · intro a hs htasks d hd
      obtain rfl : hs = [] := List.map_eq_nil_iff.1 htasks.symm
      exact ⟨[], reaches_note hd rfl rfl (List.append_nil _).symm⟩
  | @cons l l₁ l' t rest hleft hrest ihleft ihrest =>
    constructor
    · intro calls htasks d hd
      obtain ⟨call, more, rfl, rfl, rfl⟩ := List.map_eq_cons_iff.1 htasks.symm
      -- Whatever the first call is, the moves for it are followed by those for the others.
      suffices hfirst : ∃ moves, Reaches d (d.run moves) l l₁ by
        obtain ⟨moves, hmoves⟩ := hfirst
        obtain ⟨moves', hmoves'⟩ := ihrest.1 more rfl _ hmoves.bus_eq
        refine ⟨moves ++ moves', ?_⟩
        rw [Dispatch.run_append]
        exact hmoves.trans hmoves'
      cases call with
      | subscribe c k =>
        cases hleft
        refine ⟨[.subscribe c k], reaches_note ?_ rfl rfl (List.append_nil _).symm⟩
        exact congrArg (fun b => (b.subscribe c k).2) hd
      | unsubscribe id =>
        cases hleft
        refine ⟨[.unsubscribe id], reaches_note ?_ rfl rfl (List.append_nil _).symm⟩
        exact congrArg (fun b => (b.unsubscribe id).2) hd
      | publish a =>
        obtain ⟨moves, hmoves⟩ := ihleft.2 a _ rfl (d.note (.published a)) hd
        refine ⟨.publish a :: moves, ?_⟩
        have hnote : Reaches d (d.note (.published a)) l l :=
          reaches_note hd rfl rfl (List.append_nil _).symm
        rw [← hd] at hmoves
        exact hnote.trans hmoves
    · intro a hs htasks d hd
      obtain ⟨k, more, rfl, rfl, rfl⟩ := List.map_eq_cons_iff.1 htasks.symm
      obtain ⟨moves, hmoves⟩ := ihleft.1 _ rfl (d.proceed a (k :: more)) hd
      -- The handler has returned, and the others are still to run.
      have hback := hmoves.returned
      obtain ⟨moves', hmoves'⟩ := ihrest.2 a more rfl _ hback.bus_eq
      refine ⟨moves ++ .finish :: moves', ?_⟩
      rw [Dispatch.run_append, Dispatch.run_cons, Dispatch.step_finish hmoves.ongoing_eq]
      exact hback.trans hmoves'

/-- What is done to a bus at any moment is exact: each call to publish runs the handlers that listen
on the channel then, once each and in the order of subscription, and what one handler does is over
before the next one runs; a subscription is ended once and its number is not given again; and the
bus counts what is live. A delivery that comes to an end within its bound is made of such moves.
Numbers do not wrap: this is about fewer than `2 ^ 64` subscriptions. -/
theorem delivery_exact :
    (∀ (η : Type) (moves : List (Move η)), (Dispatch.run {} moves).Exact) ∧
    (∀ (moves : List (Move Handler)) (bound : Nat) (call : BusCall) (l : Live),
      Agenda.run Live.step bound ⟨(Dispatch.run {} moves).bus, []⟩ [.call call] = (l, []) →
        ∃ more, Reaches (Dispatch.run {} moves) (Dispatch.run {} (moves ++ more))
          ⟨(Dispatch.run {} moves).bus, []⟩ l) := by
  refine ⟨fun η moves => Dispatch.exact_run moves, fun moves bound call l hrun => ?_⟩
  have hcalls := (exists_moves_of_finishes (Agenda.finishes_of_run hrun)).1
  obtain ⟨more, hmore⟩ := hcalls [call] rfl (Dispatch.run {} moves) rfl
  rw [← Dispatch.run_append] at hmore
  exact ⟨more, hmore⟩

/-- A handler ends the subscription of the next one, adds another and publishes again: the one that
has lost its subscription still runs, after what the first one published, and the new one does
not. -/
theorem delivery_exact_reentrant :
    let first : Handler := .mk "first" [.unsubscribe ⟨1⟩,
      .subscribe (.kind "ping") (.mk "third" []), .publish { kind := "pong" }]
    let moves : List (Move Handler) := [.subscribe (.kind "ping") first,
      .subscribe (.kind "ping") (.mk "second" []), .subscribe (.kind "pong") (.mk "inner" [])]
    let ended := Agenda.run Live.step 9 ⟨(Dispatch.run {} moves).bus, []⟩
      [.call (.publish { kind := "ping" })]
    ended.1.record.map (fun r => (r.1, r.2.kind)) =
        [("first", "ping"), ("inner", "pong"), ("second", "ping")] ∧
      ended.2 = [] ∧
      ∃ more, Reaches (Dispatch.run {} moves) (Dispatch.run {} (moves ++ more))
        ⟨(Dispatch.run {} moves).bus, []⟩ ended.1 := by
  intro first moves ended
  have hover : ended.2 = [] := rfl
  have hended : ended = (ended.1, []) := Prod.ext rfl hover
  exact ⟨rfl, hover, delivery_exact.2 moves 9 (.publish { kind := "ping" }) ended.1 hended⟩

end LayeredAccess.Bus
