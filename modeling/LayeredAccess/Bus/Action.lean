/-
  LayeredAccess.Bus.Action

  Actions are the notices that the registries publish, and channels the
  addresses they are delivered to: an action with an id goes to the channel of
  the id, any other to the channel of its kind.
-/
import LayeredAccess.Decode
import LayeredAccess.Encode

namespace LayeredAccess

/-- A notice of a change. -/
structure Action where
  kind : String
  /-- The node concerned, if the notice goes to those who follow the node. -/
  id : Option String := none
  payload : Option Json := none
  deriving Inhabited

/-- Where actions are delivered. -/
inductive Channel where
  /-- The followers of one node. -/
  | id (id : String)
  /-- The followers of one kind of action. -/
  | kind (kind : String)
  deriving DecidableEq, Inhabited, Repr

namespace Channel

/-- The channel as it appears in diagnostics. -/
def toString : Channel → String
  | .id s => "id:" ++ s
  | .kind s => "kind:" ++ s

instance : ToString Channel := ⟨toString⟩

end Channel

namespace Action

/-- The channel of an action: an id wins over the kind. -/
def route (a : Action) : Channel :=
  match a.id with
  | some id => .id id
  | none => .kind a.kind

/-- The kind of the request that the directory publish a value. -/
def directoryPublish : String := "[Directory] Publish Now"

/-- The kind of a lifecycle notice. -/
def lifecycleKind (nodeKind label : String) : String := "[" ++ nodeKind ++ "] " ++ label

open Decode Encode

def fields : List (Slot Action) :=
  [required "type" text fun v a => { a with kind := v },
   defaulted "id" (optional text) fun v a => { a with id := v },
   defaulted "payload" (optional any) fun v a => { a with payload := v }]

def decode : Decoder Action := Decode.record "Action" fields { kind := "" }

def encode (a : Action) : Json :=
  Encode.record
    [always "type" (.str a.kind), present "id" .str a.id, present "payload" itself a.payload]

end Action

end LayeredAccess
