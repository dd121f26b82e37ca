/-
  Warden.Http.Target — the path that a request target names.

  The target is a path with perhaps a query, a full URI, an authority or an asterisk. The
  path is taken as written, escapes included. A full URI without a path has the path `/`; an
  authority has none, which is the empty text.
-/

namespace Warden.Http.Target

def endsPath (c : Char) : Bool := c == '?' || c == '#'

/-- What follows the scheme of a full URI. -/
def afterScheme : List Char → Option (List Char)
  | [] => none
  | ':' :: '/' :: '/' :: rest => some rest
  | _ :: cs => afterScheme cs

def pathChars : List Char → List Char
  | '/' :: cs => '/' :: cs.takeWhile (!endsPath ·)
  | ['*'] => ['*']
  | cs =>
    match afterScheme cs with
    | none => []
    | some rest =>
      match rest.dropWhile fun c => c != '/' && !endsPath c with
      | '/' :: path => '/' :: path.takeWhile (!endsPath ·)
      | _ => ['/']

def path (target : String) : String := String.ofList (pathChars target.toList)

end Warden.Http.Target
