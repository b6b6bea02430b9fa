import Mathlib.Data.List.Perm.Basic
import Mathlib.Data.List.Perm.Lattice
import Mathlib.Data.List.Range
import Mathlib.Logic.Function.Basic

/-!
# Who holds what

Holders stand in a list, or are named by the keys of a list, and each of them holds a list of
items. When one holder changes, what all of them hold changes by what that one held before and
holds after.
-/

namespace OpenTaker.Holdings

open scoped List

variable {ι α β : Type*}

/-- The first and the last of three lists change places. -/
theorem swap_ends (first middle last : List β) :
    first ++ (middle ++ last) ~ last ++ (middle ++ first) :=
  calc first ++ (middle ++ last)
    _ ~ middle ++ (first ++ last) := List.perm_append_comm_assoc ..
    _ ~ middle ++ (last ++ first) := List.perm_append_comm.append_left _
    _ ~ last ++ (middle ++ first) := List.perm_append_comm_assoc ..

/-- Where one holder in the list is replaced, all holdings together lose what it had and gain what
its successor has. -/
theorem flatMap_set {holders : List α} {i : Nat} {before : α} (here : holders[i]? = some before)
    (after : α) (holds : α → List β) :
    ((holders.set i after).flatMap holds ++ holds before).Perm
      (holders.flatMap holds ++ holds after) := by
  induction holders generalizing i with
  | nil => cases here
  | cons first rest inductionHypothesis =>
    cases i with
    | zero =>
      cases here
      rw [List.set_cons_zero, List.flatMap_cons, List.flatMap_cons, List.append_assoc,
        List.append_assoc]
      exact swap_ends ..
    | succ i =>
      rw [List.set_cons_succ, List.flatMap_cons, List.flatMap_cons, List.append_assoc,
        List.append_assoc]
      exact (inductionHypothesis here).append_left _

/-- One of the named holders changes what it has, and the others keep theirs. -/
theorem flatMap_update [DecidableEq ι] {keys : List ι} (distinct : keys.Nodup) {key : ι}
    (member : key ∈ keys) (holders : ι → α) (after : α) (holds : α → List β) :
    (keys.flatMap (fun other => holds (Function.update holders key after other)) ++
        holds (holders key)).Perm
      (keys.flatMap (fun other => holds (holders other)) ++ holds after) := by
  induction keys with
  | nil => cases member
  | cons first rest inductionHypothesis =>
    obtain ⟨fresh, restDistinct⟩ := List.nodup_cons.mp distinct
    rw [List.flatMap_cons, List.flatMap_cons, List.append_assoc, List.append_assoc]
    rcases List.mem_cons.mp member with rfl | inRest
    · have others : rest.flatMap (fun other => holds (Function.update holders key after other)) =
          rest.flatMap fun other => holds (holders other) := by
        refine List.flatMap_congr fun other isOther => ?_
        rw [Function.update_of_ne (ne_of_mem_of_not_mem isOther fresh)]
      rw [others, Function.update_self]
      exact swap_ends ..
    · rw [Function.update_of_ne (ne_of_mem_of_not_mem inRest fresh).symm]
      exact (inductionHypothesis restDistinct inRest).append_left _

end OpenTaker.Holdings
