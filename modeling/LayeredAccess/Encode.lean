/-
  LayeredAccess.Encode

  Writing typed data as JSON values, the counterpart of `LayeredAccess.Decode`.
  A field without value can be left out of its record.
-/
import LayeredAccess.Json.Basic

namespace LayeredAccess.Encode

/-- A JSON value is its own encoding. -/
def itself (v : Json) : Json := v

/-- A field that is always written. -/
def always (name : String) (value : Json) : Option (String × Json) := some (name, value)

/-- A field that is written only where it has a value. -/
def present {α : Type} (name : String) (encode : α → Json) (value : Option α) :
    Option (String × Json) :=
  value.map fun v => (name, encode v)

/-- A list that is written only where it has items. -/
def nonempty {α : Type} (name : String) (encode : α → Json) (items : List α) :
    Option (String × Json) :=
  if items.isEmpty then none else some (name, .arr (items.map encode))

/-- An object of the fields that are written. -/
def record (fields : List (Option (String × Json))) : Json := Json.mkObj (fields.filterMap id)

/-- A value that may be absent, as a value or `null`. -/
def nullable {α : Type} (encode : α → Json) (value : Option α) : Json :=
  Json.ofOption (value.map encode)

end LayeredAccess.Encode
