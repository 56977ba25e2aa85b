import RaibitServer.Lib.Guard
import RaibitServer.Lib.Paths

/-!
# Lib.LinkTree — a file tree with symbolic links

Entries are listed by the names that lead to them without a link.  `resolve` follows the parts of a path
as the system and `filepath.EvalSymlinks` do: a link puts the parts of its target before those that are
left.  A result that came without running out of links stays with more of them (`resolve_mono`), and a
path that leads nowhere does so with anything behind it (`resolve_append`).
-/

namespace RaibitServer.Lib

/-- An entry of a directory. -/
inductive Node
  | directory
  | file
  | link (target : String)
  deriving DecidableEq

/-- The entries below the root, which is a directory. -/
structure LinkTree where
  entries : List (List String × Node)

inductive WalkError
  | notExist
  | notDirectory
  | tooManyLinks
  deriving DecidableEq

namespace LinkTree

variable {tree : LinkTree}

def node (tree : LinkTree) (path : AbsPath) : Option Node :=
  if path.parts = [] then some .directory else tree.entries.lookup path.parts

/-- From a path without links along the parts that are left, up to the first link. -/
def walk (tree : LinkTree) (onLink : AbsPath → List String → Except WalkError AbsPath) :
    AbsPath → List String → Except WalkError AbsPath
  | path, [] => .ok path
  | path, part :: rest =>
    if isName part then
      match tree.node (path.child part) with
      | none => .error .notExist
      | some .directory => walk tree onLink (path.child part) rest
      | some .file => if rest = [] then .ok (path.child part) else .error .notDirectory
      | some (.link target) => onLink (if AbsPath.isAbs target then .root else path) (GoText.split target '/' ++ rest)
    else walk tree onLink (path.child part) rest

/-- The path without links that the parts lead to, over so many links at most. -/
def resolve (tree : LinkTree) : Nat → AbsPath → List String → Except WalkError AbsPath
  | 0 => tree.walk fun _ _ => .error .tooManyLinks
  | links + 1 => tree.walk (tree.resolve links)

theorem walk_mono {f g : AbsPath → List String → Except WalkError AbsPath} {r : Except WalkError AbsPath}
    (hfg : ∀ path parts, f path parts = r → g path parts = r)
    (path : AbsPath) (parts : List String) (h : tree.walk f path parts = r) : tree.walk g path parts = r := by
  induction parts generalizing path with
  | nil => exact h
  | cons part rest ih =>
    unfold walk at h ⊢
    split at h
    · next hname =>
      rw [if_pos hname]
      cases hnode : tree.node (path.child part) with
      | none =>
        rw [hnode] at h
        exact h
      | some node =>
        rw [hnode] at h
        cases node with
        | directory => exact ih _ h
        | file => exact h
        | link target => exact hfg _ _ h
    · next hname =>
      rw [if_neg hname]
      exact ih _ h

theorem resolve_succ {links : Nat} {r : Except WalkError AbsPath} (hr : r ≠ .error .tooManyLinks) (path : AbsPath)
    (parts : List String) (h : tree.resolve links path parts = r) : tree.resolve (links + 1) path parts = r := by
  induction links generalizing path parts with
  | zero => exact walk_mono (fun _ _ e => absurd e.symm hr) path parts h
  | succ links ih => exact walk_mono ih path parts h

theorem resolve_mono {m n : Nat} (hmn : m ≤ n) {r : Except WalkError AbsPath} (hr : r ≠ .error .tooManyLinks)
    {path : AbsPath} {parts : List String} (h : tree.resolve m path parts = r) : tree.resolve n path parts = r := by
  induction hmn with
  | refl => exact h
  | step _ ih => exact resolve_succ hr path parts ih

theorem walk_append {f : AbsPath → List String → Except WalkError AbsPath} {more : List String}
    (hf : ∀ path parts, f path parts = .error .notExist → f path (parts ++ more) = .error .notExist)
    (path : AbsPath) (parts : List String) (h : tree.walk f path parts = .error .notExist) :
    tree.walk f path (parts ++ more) = .error .notExist := by
  induction parts generalizing path with
  | nil => cases h
  | cons part rest ih =>
    rw [List.cons_append]
    unfold walk at h ⊢
    split at h
    · next hname =>
      rw [if_pos hname]
      cases hnode : tree.node (path.child part) with
      | none => rfl
      | some node =>
        rw [hnode] at h
        cases node with
        | directory => exact ih _ h
        | file =>
          dsimp only at h
          split_ifs at h
          cases h
        | link target =>
          have hmore := hf _ _ h
          rw [List.append_assoc] at hmore
          exact hmore
    · next hname =>
      rw [if_neg hname]
      exact ih _ h

theorem resolve_append {links : Nat} {more : List String} (path : AbsPath) (parts : List String)
    (h : tree.resolve links path parts = .error .notExist) :
    tree.resolve links path (parts ++ more) = .error .notExist := by
  induction links generalizing path parts with
  | zero =>
    have hnone : ∀ (p : AbsPath) (l : List String),
        (.error .tooManyLinks : Except WalkError AbsPath) = .error .notExist →
          (.error .tooManyLinks : Except WalkError AbsPath) = .error .notExist := fun _ _ e => e
    exact walk_append hnone path parts h
  | succ links ih => exact walk_append ih path parts h

end LinkTree

end RaibitServer.Lib
