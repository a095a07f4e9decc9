import Mathlib.Data.List.Basic

/-!
# A stack navigator

A stack of routes, the bottom one first. A route has a name, parameters, and the screen mounted for
it. `navigate` to a name that is on the stack goes back to its route, keeps the mounted screen,
merges the new parameters into the route's and updates the screen; to another name, it pushes a
route and constructs its screen from the parameters.
-/

set_option autoImplicit false

namespace LetItGo.Library.StackNavigator

universe u v w

variable {N : Type u} {P : Type v} {S : Type w}

structure Route (N : Type u) (P : Type v) (S : Type w) where
  name : N
  params : P
  screen : S
  deriving DecidableEq

section

variable [DecidableEq N] (merge : P → P → P) (construct : N → P → S) (update : S → S)

/-- `navigate(name, params)`. -/
def navigate (name : N) (params : P) : List (Route N P S) → List (Route N P S)
  | [] => [⟨name, params, construct name params⟩]
  | r :: rs =>
    if r.name = name then [{ r with params := merge params r.params, screen := update r.screen }]
    else r :: navigate name params rs

/-- `goBack()`, which leaves the bottom route alone. -/
def goBack (rs : List (Route N P S)) : List (Route N P S) :=
  if 1 < rs.length then rs.dropLast else rs

variable {merge construct update}

/-- A name that is not on the stack is pushed. -/
theorem navigate_of_forall_ne {name : N} {params : P} {rs : List (Route N P S)}
    (h : ∀ r ∈ rs, r.name ≠ name) :
    navigate merge construct update name params rs =
      rs ++ [⟨name, params, construct name params⟩] := by
  induction rs with
  | nil => rfl
  | cons r rs ih =>
    rw [navigate, if_neg (h r List.mem_cons_self), ih fun q hq => h q (List.mem_cons_of_mem r hq)]
    rfl

/-- A name that is on the stack is gone back to, and keeps its screen but for the update. -/
theorem navigate_of_mem {name : N} {params : P} (below above : List (Route N P S))
    {r : Route N P S} (hbelow : ∀ q ∈ below, q.name ≠ name) (hr : r.name = name) :
    navigate merge construct update name params (below ++ r :: above) =
      below ++ [{ r with params := merge params r.params, screen := update r.screen }] := by
  induction below with
  | nil => exact if_pos hr
  | cons q below ih =>
    rw [List.cons_append, navigate, if_neg (hbelow q List.mem_cons_self),
      ih fun p hp => hbelow p (List.mem_cons_of_mem q hp)]
    rfl

end

end LetItGo.Library.StackNavigator
