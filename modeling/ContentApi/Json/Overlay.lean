import ContentApi.Json.Basic

/-! The overlay of a newer document on an older one, which no null erases. -/

namespace ContentApi

mutual

/-- A document overlaid with a newer one: nulls change nothing, objects overlay objects member by
member, and anything else replaces. -/
def Json.overlay (target : Json) : Json → Json
  | .null => target
  | .object patch =>
    match target with
    | .object members => .object (Members.overlay members patch)
    | _ => .object patch
  | patch => patch

/-- Members overlaid with newer ones, of which a null changes nothing. -/
def Members.overlay (members : Members) : Members → Members
  | [] => members
  | (name, value) :: rest =>
    let merged :=
      if value.isNull then members
      else
        -- Only a known object is overlaid; a new member comes in whole, with the nulls inside it.
        match Members.find? name members with
        | some (.object inner) => Members.insert name (Json.overlay (.object inner) value) members
        | _ => Members.insert name value members
    Members.overlay merged rest

end

end ContentApi
