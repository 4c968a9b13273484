import SolanaTx.Json.Basic

/-!
# Log events

Diagnostics are written as objects. Whatever a source has left out, each has a
time, and an event with a type has a message.
-/

namespace SolanaTx.LogEvent

/-- The fields of an event, of which `event` names the type where `event_type` is missing. -/
def withType (fields : Json.Fields) : Json.Fields :=
  match Json.lookup "event" fields, Json.lookup "event_type" fields with
  | some type, none => Json.put "event_type" type (Json.remove "event" fields)
  | _, _ => fields

/-- The fields of an event, whose type is its message where that is missing. -/
def withMessage (fields : Json.Fields) : Json.Fields :=
  match Json.lookup "message" fields, Json.lookup "event_type" fields with
  | none, some type => Json.put "message" (.text type.plain) fields
  | _, _ => fields

/-- The fields of an event, whose time is `now` where none is given. -/
def withTime (now : Text) (fields : Json.Fields) : Json.Fields :=
  if (Json.lookup "timestamp" fields).isSome then fields
  else Json.put "timestamp" (.text now) fields

/-- An event as it is written. -/
def complete (now : Text) (fields : Json.Fields) : Json.Fields :=
  withMessage (withType (withTime now fields))

end SolanaTx.LogEvent
