/-
  Warden.Options.Key — the names of the options.

  `Key.all` lists them in the order of the positional form of an options document.
-/

namespace Warden.Options

inductive Key where
  | tokenKey
  | scopeKey
  | adminKey
  | claimDelimiter
  | claimScopeDelimiter
  | credentialsRequired
  | scopeRequired
  | requestProperty
  deriving DecidableEq, Repr

namespace Key

def all : List Key :=
  [tokenKey, scopeKey, adminKey, claimDelimiter, claimScopeDelimiter, credentialsRequired, scopeRequired,
    requestProperty]

def name : Key → String
  | tokenKey => "tokenKey"
  | scopeKey => "scopeKey"
  | adminKey => "adminKey"
  | claimDelimiter => "claimDelimiter"
  | claimScopeDelimiter => "claimScopeDelimiter"
  | credentialsRequired => "credentialsRequired"
  | scopeRequired => "scopeRequired"
  | requestProperty => "requestProperty"

def ofName? (s : String) : Option Key := all.find? (·.name == s)

theorem mem_all (k : Key) : k ∈ all := by cases k <;> decide

theorem name_injective {k l : Key} (h : k.name = l.name) : k = l := by
  revert h; cases k <;> cases l <;> simp [name]

theorem ofName?_name (k : Key) : ofName? k.name = some k := by cases k <;> simp [ofName?, all, name]

theorem ofName?_eq_some {s : String} {k : Key} (h : ofName? s = some k) : k.name = s := by
  simpa using List.find?_some h

end Key

end Warden.Options
