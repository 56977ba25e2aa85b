import Mathlib.Data.List.Basic

/-!
# Lib.Scanner — rewriting a text from left to right

A scanner walks over a text once.  At each place it sees what it has passed, last item first, and what
lies ahead; it keeps the next item, writes something else for the next few, or ends the text with a
result.
-/

namespace RaibitServer.Lib.Scanner

variable {α β : Type}

inductive Move (α β : Type)
  | keep
  /-- Write `out` for the next `n` items. -/
  | replace (out : List α) (n : Nat)
  | stop (out : List α) (result : β)

/-- Text put in front of what was written. -/
def emit (out : List α) (r : List α × β) : List α × β := (out ++ r.1, r.2)

/-- The walk; `skip` items still belong to the last replacement. -/
def scan (move : List α → List α → Move α β) (finish : β) : Nat → List α → List α → List α × β
  | _, _, [] => ([], finish)
  | skip + 1, before, c :: s => scan move finish skip (c :: before) s
  | 0, before, c :: s =>
    match move before (c :: s) with
    | .keep => emit [c] (scan move finish 0 (c :: before) s)
    | .replace out n => emit out (scan move finish (n - 1) (c :: before) s)
    | .stop out result => (out, result)

end RaibitServer.Lib.Scanner
