/-
  LayeredAccess.Merge

  Merging payload layers. Objects merge member by member; anything else
  replaces what lies below it. The sentinel `{"$unset": true}` means "no
  opinion": the layer below shows through, or the member stays absent.
-/
import LayeredAccess.Json.Basic

namespace LayeredAccess.Json

/-! ## The sentinel -/

/-- The key of the sentinel's only member. -/
def unsetKey : String := "$unset"

/-- The sentinel "no opinion". -/
def unset : Json := .obj [(unsetKey, .bool true)]

/-- Is a value the sentinel? -/
def isUnset : Json → Bool
  | .obj [(k, .bool b)] => k == unsetKey && b
  | _ => false

mutual

/-- Does a value hold the sentinel at any depth? -/
def containsUnset : Json → Bool
  | .obj members => isUnset (.obj members) || membersContainUnset members
  | .arr items => itemsContainUnset items
  | _ => false

/-- Does one of the values hold the sentinel? -/
def itemsContainUnset : List Json → Bool
  | [] => false
  | v :: rest => containsUnset v || itemsContainUnset rest

/-- Does one of the members hold the sentinel? -/
def membersContainUnset : List (String × Json) → Bool
  | [] => false
  | (_, v) :: rest => containsUnset v || membersContainUnset rest

end

mutual

/-- The value without the members and items that are sentinels, at every depth. The sentinels
are those of the given value: one that comes about by the removal stays. -/
def stripUnset : Json → Json
  | .obj members => .obj (stripMembers members)
  | .arr items => .arr (stripItems items)
  | v => v

/-- The items that are no sentinels, stripped. -/
def stripItems : List Json → List Json
  | [] => []
  | v :: rest => if isUnset v then stripItems rest else stripUnset v :: stripItems rest

/-- The members that are no sentinels, stripped. -/
def stripMembers : List (String × Json) → List (String × Json)
  | [] => []
  | (k, v) :: rest =>
    if isUnset v then stripMembers rest else (k, stripUnset v) :: stripMembers rest

end

/-! ## Merging -/

mutual

/-- Lays a value over another. -/
def mergeOver (base : Json) : Json → Json
  | .obj above =>
    if isUnset (.obj above) then base
    else
      match base with
      | .obj members => .obj (mergeMembers members above)
      | _ => stripUnset (.obj above)
  | above => stripUnset above

/-- Lays the members of an object, in key order, over those of another. -/
def mergeMembers (members : KeyMap String Json) : List (String × Json) → KeyMap String Json
  | [] => members
  | (k, v) :: rest =>
    if isUnset v then mergeMembers members rest
    else
      match KeyMap.find? members k with
      | some old => mergeMembers (KeyMap.insert members k (mergeOver old v)) rest
      | none => mergeMembers (KeyMap.insert members k (stripUnset v)) rest

end

/-- Lays a layer over what the layers below it gave, if there was one. -/
def mergeLayer (below : Option Json) (layer : Json) : Option Json :=
  if isUnset layer then below
  else
    match below with
    | none => some (stripUnset layer)
    | some v => some (mergeOver v layer)

/-- The layers merged from the lowest to the highest; an empty object if none has an opinion. -/
def mergeLayers (layers : List Json) : Json := (layers.foldl mergeLayer none).getD (.obj [])

/-! ## Small laws -/

@[simp] theorem isUnset_unset : isUnset unset = true := by decide

/-- Only the sentinel counts as the sentinel. -/
theorem isUnset_iff (v : Json) : isUnset v = true ↔ v = unset := by
  constructor
  · intro h
    unfold isUnset at h
    split at h
    · simp at h
      obtain ⟨rfl, rfl⟩ := h
      rfl
    · simp at h
  · rintro rfl; decide

@[simp] theorem mergeLayers_nil : mergeLayers [] = .obj [] := rfl

/-- A layer without opinion changes nothing, wherever it stands. -/
theorem mergeLayers_unset (below above : List Json) :
    mergeLayers (below ++ unset :: above) = mergeLayers (below ++ above) := by
  simp [mergeLayers, mergeLayer]

end LayeredAccess.Json
