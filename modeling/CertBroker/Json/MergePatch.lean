import CertBroker.Json

namespace CertBroker.Json

mutual

/-- A patch that is an object removes the members it gives as null, patches those it gives otherwise
and keeps all others; any other patch replaces the target. -/
def mergePatch (target : Json) : Json → Json
  | .object patch => .object (mergeMembers ((target.members?).getD []) patch)
  | patch => patch

/-- Applies the members of a patch one after the other. -/
def mergeMembers (target : List (String × Json)) :
    List (String × Json) → List (String × Json)
  | [] => target
  | (name, .null) :: rest => mergeMembers (dropMember name target) rest
  | (name, patch) :: rest =>
    mergeMembers (setMember name (mergePatch ((member? name target).getD .null) patch) target) rest

end

end CertBroker.Json
