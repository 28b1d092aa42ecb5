import Agent33.Library.Glob

/-!
# Scope permissions
-/

namespace Agent33.Security.Permissions

open Library

inductive PermissionDecision
  | allow
  | ask
  | deny
  deriving DecidableEq

def matchesAnyWildcard (scope : String) (patterns : List String) : Bool :=
  patterns.any fun pattern => Glob.fnmatch scope.toList pattern.toList

/-- Deny patterns come first, then ask patterns, then the admin scope and the
scopes of the token. An absent list of patterns is an empty one. -/
def checkPermissionDecision (requiredScope : String)
    (tokenScopes denyScopes askScopes : List String) : PermissionDecision :=
  if matchesAnyWildcard requiredScope denyScopes then .deny
  else if matchesAnyWildcard requiredScope askScopes then .ask
  else if matchesAnyWildcard "admin" tokenScopes then
    if matchesAnyWildcard "admin" denyScopes then .deny
    else if matchesAnyWildcard "admin" askScopes then .ask
    else .allow
  else if matchesAnyWildcard requiredScope tokenScopes then .allow
  else .deny

def checkPermission (requiredScope : String) (tokenScopes : List String)
    (denyScopes : List String := []) : Bool :=
  checkPermissionDecision requiredScope tokenScopes denyScopes [] == .allow

end Agent33.Security.Permissions
