/-
  Warden.Error — what can go wrong, and how it is reported.

  An error is a cause. `message` words it, `code` names its kind for machines, `status` is
  its HTTP status and `exposed` says whether the message may be shown to a client. Faults in
  the options and in the arguments of a route arise when the route is set up, a malformed
  claim points at the issuer of the token, and only a missing token and a denial are for the
  client to see: those two kinds are the exposed ones.

  Each kind of fault ends in `other`, a fault found by a caller and in the caller's words.
-/

import Warden.Json.Printer
import Warden.Options.Key
import Warden.Text.Quoted

namespace Warden

/-! ## Faults in the options -/

inductive DelimiterFault where
  | notOneCharacter
  | spaceBetweenScopes
  | notPunctuation
  | other (reason : String)
  deriving DecidableEq, Repr

def DelimiterFault.reason : DelimiterFault → String
  | notOneCharacter => "must be exactly one character"
  | spaceBetweenScopes => "space is only allowed as claimDelimiter"
  | notPunctuation => "must be one of -!\"#$%&'()+,./:;<=>?@[]^`\x7b|\x7d~"
  | other reason => reason

inductive PathFault where
  | noSegments
  | empty
  | emptySegment (dotted : String)
  | other (reason : String)
  deriving DecidableEq, Repr

def PathFault.reason : PathFault → String
  | noSegments => "path segment list is empty"
  | empty => "path is empty"
  | emptySegment dotted => "path '" ++ dotted ++ "' contains an empty segment"
  | other reason => reason

inductive AdminFault where
  | pathAndPredicate
  | other (reason : String)
  deriving DecidableEq, Repr

def AdminFault.reason : AdminFault → String
  | pathAndPredicate => "a path and a predicate cannot both be set"
  | other reason => reason

/-- Why an options document cannot be read. -/
inductive DocumentFault where
  | notOptions (found : Json)
  | unknownKey (key : String)
  | notPath
  | notString (found : Json)
  | notBoolean (found : Json)
  | tooShort (length : Nat)
  | tooLong (length : Nat)
  /-- The document is no JSON text, or not the text of options. -/
  | unreadableText
  | other (reason : String)
  deriving DecidableEq

/-- A value as a message names it. -/
def Json.described : Json → String
  | .null => "null"
  | .bool b => "boolean `" ++ (if b then "true" else "false") ++ "`"
  | .number (.integer n) => "integer `" ++ Json.text (.number (.integer n)) ++ "`"
  | .number (.double d) => "floating point `" ++ d.text ++ "`"
  | .string s => "string " ++ Text.quoted s
  | .array _ => "sequence"
  | .object _ => "map"

def DocumentFault.reason : DocumentFault → String
  | notOptions found => "invalid type: " ++ found.described ++ ", expected struct GuardOptions"
  | unknownKey key =>
    "unknown field `" ++ key ++ "`, expected one of " ++
      ", ".intercalate (Options.Key.all.map fun k => "`" ++ k.name ++ "`")
  | notPath => "data did not match any variant of untagged enum PathInput"
  | notString found => "invalid type: " ++ found.described ++ ", expected a string"
  | notBoolean found => "invalid type: " ++ found.described ++ ", expected a boolean"
  | tooShort length => "invalid length " ++ toString length ++ ", expected struct GuardOptions with 8 elements"
  | tooLong length => "invalid length " ++ toString length ++ ", expected fewer elements in array"
  | unreadableText => "not the text of options"
  | other reason => reason

inductive OptionsError where
  | invalidDelimiter (option : Options.Key) (value : String) (fault : DelimiterFault)
  | sameDelimiters (delimiter : Char)
  | invalidPath (option : Options.Key) (fault : PathFault)
  | invalidAdmin (fault : AdminFault)
  | malformed (fault : DocumentFault)
  deriving DecidableEq

def OptionsError.message : OptionsError → String
  | invalidDelimiter option value fault => "invalid " ++ option.name ++ " '" ++ value ++ "': " ++ fault.reason
  | sameDelimiters delimiter =>
    "claimDelimiter and claimScopeDelimiter must differ (both are '" ++ delimiter.toString ++ "')"
  | invalidPath option fault => "invalid " ++ option.name ++ ": " ++ fault.reason
  | invalidAdmin fault => "invalid adminKey: " ++ fault.reason
  | malformed fault => "malformed guard options: " ++ fault.reason

/-! ## Faults in arguments and claims -/

/-- Why a text is no permission that a route can require. -/
inductive ArgumentFault where
  | empty
  | wildcard
  | notRuns (scope : Char)
  | other (reason : String)
  deriving DecidableEq, Repr

def ArgumentFault.reason : ArgumentFault → String
  | empty => "permission cannot be empty"
  | wildcard => "wildcards are only allowed in granted permissions"
  | notRuns scope => "expected runs of [A-Za-z0-9_] separated by '" ++ scope.toString ++ "'"
  | other reason => reason

/-- Why a claim grants nothing that can be read. -/
inductive ClaimFault where
  | notString (index : Nat) (item : Json)
  | wrongType (found : Json)
  | notPermission (element : String)
  | other (reason : String)
  deriving DecidableEq

/-- The type of a value, as JSON calls it. -/
def Json.typeName : Json → String
  | .null => "null"
  | .bool _ => "boolean"
  | .number _ => "number"
  | .string _ => "string"
  | .array _ => "array"
  | .object _ => "object"

def ClaimFault.reason : ClaimFault → String
  | notString index item => "element " ++ toString index ++ " of the claim is not a string: " ++ item.text
  | wrongType found => "claim must be a string or an array of strings, got " ++ found.typeName
  | notPermission element => "granted permission '" ++ element ++ "' does not follow the permission grammar"
  | other reason => reason

/-! ## Refusals -/

inductive CredentialFault where
  | noToken
  | other (reason : String)
  deriving DecidableEq, Repr

def CredentialFault.reason : CredentialFault → String
  | noToken => "No authorization token was found"
  | other reason => reason

/-- Why a request with a token is turned down. -/
inductive DenialCause where
  /-- A predicate denied, for this reason. -/
  | denied (reason : String)
  | ruleFailed
  | nothingGranted
  deriving DecidableEq, Repr

def DenialCause.reason : DenialCause → String
  | denied reason => reason
  | ruleFailed => "Permission denied"
  | nothingGranted => "Permission denied: the token grants no permissions"

inductive AccessError where
  | options (cause : OptionsError)
  | emptyArgument
  | invalidArgument (index : Nat) (value : String) (fault : ArgumentFault)
  | dataIntegrity (fault : ClaimFault)
  | unauthorized (fault : CredentialFault)
  | forbidden (cause : DenialCause)
  deriving DecidableEq

namespace AccessError

def message : AccessError → String
  | options cause => cause.message
  | emptyArgument => "At least one permission or predicate must be given"
  | invalidArgument index value fault =>
    "Invalid permission argument at index " ++ toString index ++ " ('" ++ value ++ "'): " ++ fault.reason
  | dataIntegrity fault => "Granted permission claim is malformed: " ++ fault.reason
  | unauthorized fault => fault.reason
  | forbidden cause => cause.reason

def code : AccessError → String
  | options _ => "config_error"
  | emptyArgument => "empty_argument"
  | invalidArgument .. => "invalid_argument"
  | dataIntegrity _ => "data_integrity"
  | unauthorized _ => "unauthorized"
  | forbidden _ => "forbidden"

def status : AccessError → Nat
  | unauthorized _ => 401
  | forbidden _ => 403
  | _ => 500

/-- Whether a client may read the message. -/
def exposed : AccessError → Bool
  | unauthorized _ | forbidden _ => true
  | _ => false

end AccessError

end Warden
