/-
  Warden.Rule — boolean rules over permissions and predicates.

  `eval` reads a rule from left to right and stops as soon as the answer is known: `all` at
  the first child that fails, `any` at the first that passes. A denial ends the whole
  evaluation, whatever stands around it. The result carries the predicate calls that were
  made. `text` writes a rule with its operators in capitals and a pair of brackets around
  every `all` and `any`.
-/

import Warden.Argument

namespace Warden

/-- What a rule is evaluated against. -/
structure Context where
  grants : Grants
  view : View

inductive Rule where
  /-- Some granted permission covers this one. -/
  | permission (p : Permission)
  | predicate (p : Predicate)
  | all (children : List Rule)
  | any (children : List Rule)
  | not (child : Rule)
  /-- The request passed the admin check. -/
  | admin

namespace Rule

/-! ## Building -/

def ofRequirement : Requirement → Rule
  | .permission p => .permission p
  | .predicate p => .predicate p

/-- All requirements; a single one is the rule itself. -/
def ofRequirements : List Requirement → Rule
  | [r] => ofRequirement r
  | rs => .all (rs.map ofRequirement)

/-- The rule that the arguments of a route make. -/
def ofArguments? (d : Delimiters) (args : List Argument) : Except AccessError Rule :=
  (d.requirements? args).map ofRequirements

def or (rule alternative : Rule) : Rule := .any [rule, alternative]

def butNot (rule exclusion : Rule) : Rule := .all [rule, .not exclusion]

/-! ## Evaluation -/

mutual

def eval (ctx : Context) : Rule → Audited Verdict
  | .permission p => .of (.ok (ctx.grants.contains p))
  | .predicate p => p.call ctx.grants ctx.view
  | .all children => evalAll ctx children
  | .any children => evalAny ctx children
  | .not child => (eval ctx child).map (·.map (!·))
  | .admin => .of (.ok ctx.view.isAdmin)

def evalAll (ctx : Context) : List Rule → Audited Verdict
  | [] => .of (.ok true)
  | child :: children =>
    (eval ctx child).andThen fun
      | true => evalAll ctx children
      | false => .of (.ok false)

def evalAny (ctx : Context) : List Rule → Audited Verdict
  | [] => .of (.ok false)
  | child :: children =>
    (eval ctx child).andThen fun
      | true => .of (.ok true)
      | false => evalAny ctx children

end

/-! ## Text -/

mutual

def chars : Rule → List Char
  | .permission p => p.text.toList
  | .predicate p => p.name.toList ++ ['(', ')']
  | .all children => '(' :: charsJoined [' ', 'A', 'N', 'D', ' '] children ++ [')']
  | .any children => '(' :: charsJoined [' ', 'O', 'R', ' '] children ++ [')']
  | .not child => ['N', 'O', 'T', ' '] ++ chars child
  | .admin => ['A', 'D', 'M', 'I', 'N']

def charsJoined (operator : List Char) : List Rule → List Char
  | [] => []
  | [child] => chars child
  | child :: children => chars child ++ operator ++ charsJoined operator children

end

def text (r : Rule) : String := String.ofList r.chars

end Rule

end Warden
