/-
  Warden.Argument — what a route is declared with.

  The arguments of a route are permissions, as texts, and predicates. `requirements?` checks
  the permissions and leaves out each that was given before, so a text counts once and a
  predicate as often as it is given. The first text that is no permission is reported with
  its place among all arguments.
-/

import Warden.Grammar
import Warden.Predicate

namespace Warden

inductive Argument where
  | permission (text : String)
  | predicate (p : Predicate)

/-- A checked argument. -/
inductive Requirement where
  | permission (p : Permission)
  | predicate (p : Predicate)

namespace Delimiters

/-- The requirements of arguments, the first of which has the given index, after the given texts. -/
def requirementsFrom (d : Delimiters) (index : Nat) (seen : List String) :
    List Argument → Except AccessError (List Requirement)
  | [] => .ok []
  | .permission s :: args =>
    match d.permission? s with
    | .error fault => .error (.invalidArgument index s fault)
    | .ok p =>
      if s ∈ seen then requirementsFrom d (index + 1) seen args
      else (requirementsFrom d (index + 1) (s :: seen) args).map (.permission p :: ·)
  | .predicate p :: args => (requirementsFrom d (index + 1) seen args).map (.predicate p :: ·)

def requirements? (d : Delimiters) (args : List Argument) : Except AccessError (List Requirement) :=
  if args.isEmpty then .error .emptyArgument else requirementsFrom d 0 [] args

end Delimiters

end Warden
