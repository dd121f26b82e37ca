/-
  Warden.Options.Document — options written as JSON.

  The document is an object with the option names as keys, or a list of the values in the
  order of `Key.all`, of which the last may be missing. Null leaves an option unset, except
  that a null request property disables attaching. An object is read in the order of its
  keys and a list from left to right, and the first fault is reported. Options are also read
  from JSON text, in which no key may be given twice.
-/

import Warden.Json.Reader
import Warden.Options

namespace Warden.Options

def pathInput? : Json → Except DocumentFault PathInput
  | .string s => .ok (.dotted s)
  | .array items =>
    match items.mapM fun | .string s => some s | _ => none with
    | some segments => .ok (.list segments)
    | none => .error .notPath
  | _ => .error .notPath

def string? : Json → Except DocumentFault String
  | .string s => .ok s
  | v => .error (.notString v)

def boolean? : Json → Except DocumentFault Bool
  | .bool b => .ok b
  | v => .error (.notBoolean v)

/-- A value that may be null. -/
def nullable {α : Type} (read : Json → Except DocumentFault α) : Json → Except DocumentFault (Option α)
  | .null => .ok none
  | v => (read v).map some

def attachment? (v : Json) : Except DocumentFault Attachment :=
  (nullable pathInput? v).map fun
    | none => .disabled
    | some p => .path p

/-- The options with one of them read from a value. -/
def set (o : Options) : Key → Json → Except DocumentFault Options
  | .tokenKey, v => (nullable pathInput? v).map ({ o with tokenKey := · })
  | .scopeKey, v => (nullable pathInput? v).map ({ o with scopeKey := · })
  | .adminKey, v => (nullable pathInput? v).map ({ o with adminKey := · })
  | .claimDelimiter, v => (nullable string? v).map ({ o with claimDelimiter := · })
  | .claimScopeDelimiter, v => (nullable string? v).map ({ o with claimScopeDelimiter := · })
  | .credentialsRequired, v => (nullable boolean? v).map ({ o with credentialsRequired := · })
  | .scopeRequired, v => (nullable boolean? v).map ({ o with scopeRequired := · })
  | .requestProperty, v => (attachment? v).map ({ o with requestProperty := · })

def setMembers (o : Options) : List (String × Json) → Except DocumentFault Options
  | [] => .ok o
  | (key, v) :: members =>
    match Key.ofName? key with
    | none => .error (.unknownKey key)
    | some k => do setMembers (← o.set k v) members

/-- The options of a list of values, and how many values were read. -/
def setInOrder (o : Options) : List Key → List Json → Except DocumentFault Options
  | k :: keys, v :: values => do setInOrder (← o.set k v) keys values
  | _, _ => .ok o

def ofJson? : Json → Except DocumentFault Options
  | .object members => setMembers {} members
  | .array values => do
    let o ← setInOrder {} Key.all values
    if values.length + 1 < Key.all.length then .error (.tooShort values.length)
    else if Key.all.length < values.length then .error (.tooLong values.length)
    else .ok o
  | v => .error (.notOptions v)

/-- The options that a JSON value describes. -/
def ofDocument (v : Json) : Except OptionsError Options := (ofJson? v).mapError .malformed

/-- The options that a JSON text describes. -/
def ofText (text : String) : Except OptionsError Options :=
  match Json.read? .refused text with
  | none => .error (.malformed .unreadableText)
  | some v => (ofJson? v).mapError fun _ => .malformed .unreadableText

end Warden.Options
