import RaibitServer.Lib.GoText

/-!
# Lib.Paths — absolute paths in clean form

`path/filepath` on Unix, lexically: an absolute path is the list of its names, so that no empty part,
no `.` and no `..` is left in it.  Joining a relative text walks through its parts.
-/

namespace RaibitServer.Lib

def isName (s : String) : Bool := s ≠ "" && s ≠ "." && s ≠ ".."

/-- A clean absolute path. -/
structure AbsPath where
  parts : List String
  names : ∀ p ∈ parts, isName p = true
  deriving DecidableEq

namespace AbsPath

theorem ext_parts {p q : AbsPath} (h : p.parts = q.parts) : p = q := by
  cases p
  cases q
  congr

def root : AbsPath := ⟨[], by simp⟩

/-- The effect of one part of a text on the names before it. -/
def step (parts : List String) (part : String) : List String :=
  if part = "" ∨ part = "." then parts else if part = ".." then parts.dropLast else parts ++ [part]

theorem step_names {parts : List String} (h : ∀ p ∈ parts, isName p = true) (part : String) :
    ∀ p ∈ step parts part, isName p = true := by
  unfold step
  split_ifs with hskip hup
  · exact h
  · intro p hp
    exact h p (List.mem_of_mem_dropLast hp)
  · intro p hp
    rcases List.mem_append.1 hp with hp | hp
    · exact h p hp
    · obtain rfl := List.mem_singleton.1 hp
      rw [not_or] at hskip
      simp [isName, hskip, hup]

theorem foldl_names {steps : List String} : ∀ {parts : List String}, (∀ p ∈ parts, isName p = true) →
    ∀ p ∈ steps.foldl step parts, isName p = true := by
  induction steps with
  | nil => exact fun h => h
  | cons part steps ih => exact fun h => ih (step_names h part)

/-- `filepath.Join` of a path and one part. -/
def child (path : AbsPath) (part : String) : AbsPath := ⟨step path.parts part, step_names path.names part⟩

/-- `filepath.Join(path, relative)`. -/
def join (path : AbsPath) (relative : String) : AbsPath :=
  ⟨(GoText.split relative '/').foldl step path.parts, foldl_names path.names⟩

def isAbs (s : String) : Bool := Text.startsWith s "/"

/-- `filepath.Abs`. -/
def abs (cwd : AbsPath) (s : String) : AbsPath := if isAbs s then root.join s else cwd.join s

/-- `filepath.Dir`. -/
def dir (path : AbsPath) : AbsPath := ⟨path.parts.dropLast, fun p hp => path.names p (List.mem_of_mem_dropLast hp)⟩

/-- `filepath.Base`; the root has no name. -/
def base (path : AbsPath) : Option String := path.parts.getLast?

/-- The names of `filepath.Rel(from, path)`; `none` if it begins with `..`. -/
def relative (origin path : AbsPath) : Option (List String) :=
  if origin.parts.isPrefixOf path.parts then some (path.parts.drop origin.parts.length) else none

/-- Each name behind its slash. -/
def slashed (parts : List String) : String := String.join (parts.map fun p => "/" ++ p)

def text (path : AbsPath) : String := if path.parts = [] then "/" else slashed path.parts

/-! ### Below a path -/

theorem child_parts {name : String} (path : AbsPath) (h : isName name = true) :
    (path.child name).parts = path.parts ++ [name] := by
  unfold isName at h
  simp only [Bool.and_eq_true, decide_eq_true_eq] at h
  show step path.parts name = _
  unfold step
  rw [if_neg (not_or.2 h.1), if_neg h.2]

theorem foldl_child_parts {names : List String} (path : AbsPath) (h : ∀ name ∈ names, isName name = true) :
    (names.foldl child path).parts = path.parts ++ names := by
  induction names generalizing path with
  | nil => exact (List.append_nil _).symm
  | cons name names ih =>
    rw [List.foldl_cons, ih _ fun n hn => h n (List.mem_cons_of_mem _ hn), child_parts _ (h name List.mem_cons_self),
      List.append_assoc]
    rfl

theorem relative_eq_some {origin path : AbsPath} {names : List String} :
    origin.relative path = some names ↔ path.parts = origin.parts ++ names := by
  unfold relative
  split_ifs with h
  · obtain ⟨rest, hrest⟩ := List.isPrefixOf_iff_prefix.1 h
    rw [← hrest, List.drop_left, Option.some.injEq, List.append_cancel_left_eq]
  · refine ⟨nofun, fun heq => absurd (List.isPrefixOf_iff_prefix.2 ?_) h⟩
    rw [heq]
    exact List.prefix_append _ _

/-- The path lies at or below `origin`. -/
def Below (origin path : AbsPath) : Prop := origin.relative path ≠ none

theorem below_iff {origin path : AbsPath} : Below origin path ↔ origin.parts <+: path.parts := by
  unfold Below
  rw [Option.ne_none_iff_exists']
  constructor
  · rintro ⟨names, h⟩
    exact ⟨names, (relative_eq_some.1 h).symm⟩
  · rintro ⟨names, h⟩
    exact ⟨names, relative_eq_some.2 h.symm⟩

theorem Below.trans {a b c : AbsPath} (h : Below a b) (h' : Below b c) : Below a c :=
  below_iff.2 ((below_iff.1 h).trans (below_iff.1 h'))

theorem below_self (path : AbsPath) : Below path path := below_iff.2 List.prefix_rfl

end AbsPath

end RaibitServer.Lib
