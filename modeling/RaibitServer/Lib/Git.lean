import Mathlib.Data.List.Basic

/-!
# Lib.Git — branches with linear histories and shallow clones

A remote gives each of its branches a history, which always has a tip.  A clone of depth one has that
tip and nothing else; a revision is checked out if it is there.
-/

namespace RaibitServer.Lib.Git

/-- The commits of a branch, oldest first, and the tip. -/
structure History (C : Type) where
  older : List C
  tip : C

def History.commits {C : Type} (h : History C) : List C := h.older ++ [h.tip]

/-- The branch after a push of one commit. -/
def History.push {C : Type} (h : History C) (c : C) : History C := ⟨h.commits, c⟩

/-- The branches by name. -/
abbrev Remote (C : Type) := String → Option (History C)

structure WorkTree (C : Type) where
  available : List C
  head : C
  deriving DecidableEq

/-- `git clone --depth 1 --branch b`. -/
def shallowClone {C : Type} (remote : Remote C) (branch : String) : Option (WorkTree C) :=
  (remote branch).map fun h => ⟨[h.tip], h.tip⟩

/-- `git checkout`, of the commit that a name stands for. -/
def WorkTree.checkout {C : Type} (tree : WorkTree C) (named : C → Bool) : Option (WorkTree C) :=
  (tree.available.find? named).map fun c => { tree with head := c }

variable {C : Type} {remote : Remote C} {branch : String} {history : History C}

theorem shallowClone_some (h : remote branch = some history) :
    shallowClone remote branch = some ⟨[history.tip], history.tip⟩ := by
  rw [shallowClone, h, Option.map_some]

/-- In a shallow clone only the tip can be checked out. -/
theorem checkout_shallow (named : C → Bool) :
    (⟨[history.tip], history.tip⟩ : WorkTree C).checkout named =
      if named history.tip then some ⟨[history.tip], history.tip⟩ else none := by
  unfold WorkTree.checkout
  by_cases hnamed : named history.tip = true
  · rw [List.find?_cons_of_pos hnamed, if_pos hnamed, Option.map_some]
  · rw [List.find?_cons_of_neg hnamed, if_neg hnamed, List.find?_nil, Option.map_none]

end RaibitServer.Lib.Git
