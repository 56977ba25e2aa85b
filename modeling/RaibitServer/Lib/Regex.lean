import Mathlib.Data.List.Basic

/-!
# Lib.Regex — leftmost-first regular expressions

Patterns as RE2 and Perl read them: of all matches the leftmost counts, and of those that start there
the one that the alternatives and the greedy repetitions prefer.  `results` lists the matches at one
place in that order of preference; a match carries its text, the text behind it and its groups.  The
anchors look at the character before the place (`none` at the start of the text).

* `results_append`: a match and what follows it make up the text it was found in.
* `find_rest_lt`: a search for a consuming pattern leaves less than it was given, so a loop over its matches
  ends.
-/

namespace RaibitServer.Lib

inductive Regex
  | empty
  | cls (p : Char → Bool)
  | seq (a b : Regex)
  | alt (a b : Regex)
  /-- Greedy repetition; a turn that consumes nothing is not taken. -/
  | star (a : Regex)
  | group (n : Nat) (a : Regex)
  /-- `^`, `$` and `\b`, without the multi-line flag. -/
  | start
  | stop
  | boundary

namespace Regex

/-! ### Classes -/

/-- The characters that Unicode simple case folding identifies with `c`, as far as classes of ASCII
letters can tell: besides the other case, the long s and the Kelvin sign. -/
def caseVariants (c : Char) : List Char :=
  [c, c.toLower, c.toUpper] ++
    if c.toNat = 0x17F then ['s', 'S'] else if c.toNat = 0x212A then ['k', 'K'] else []

/-- A class under the flag `(?i)`. -/
def folded (p : Char → Bool) (c : Char) : Bool := (caseVariants c).any p

/-- `\s`. -/
def isSpace (c : Char) : Bool := ['\t', '\n', Char.ofNat 12, '\r', ' '].contains c

/-- The class of `\b`. -/
def isWord (c : Char) : Bool := c.isAlphanum || c = '_'

/-! ### Builders -/

def seqs (rs : List Regex) : Regex := rs.foldr seq empty

def alts : List Regex → Regex
  | [] => cls fun _ => false
  | [r] => r
  | r :: rs => alt r (alts rs)

def lit (s : String) : Regex := seqs (s.toList.map fun c => cls fun d => d = c)

/-- A literal under the flag `(?i)`. -/
def litFold (s : String) : Regex := seqs (s.toList.map fun c => cls (folded fun d => d = c))

def oneOf (cs : List Char) : Regex := cls cs.contains

def noneOf (p : Char → Bool) (cs : List Char) : Regex := cls fun c => !(p c || cs.contains c)

def plus (a : Regex) : Regex := seq a (star a)

/-- `a{0,n}`. -/
def upTo : Nat → Regex → Regex
  | 0, _ => empty
  | n + 1, a => alt (seq a (upTo n a)) empty

/-! ### Matching -/

structure Match where
  text : List Char
  rest : List Char
  groups : List (Nat × List Char)

def Match.andThen (m n : Match) : Match := ⟨m.text ++ n.text, n.rest, m.groups ++ n.groups⟩

/-- The text of group `n`; empty if it took no part. -/
def Match.group (m : Match) (n : Nat) : List Char :=
  ((m.groups.find? fun g => g.1 = n).map (·.2)).getD []

def here (s : List Char) : Match := ⟨[], s, []⟩

/-- The character before the place behind `text`. -/
def before (prev : Option Char) (text : List Char) : Option Char := text.getLast?.or prev

/-- At most `n` turns of a repetition, longest first. -/
def turns (one : Option Char → List Char → List Match) :
    Nat → Option Char → List Char → List Match
  | 0, _, s => [here s]
  | n + 1, prev, s =>
    ((one prev s).filter fun m => !m.text.isEmpty).flatMap
      (fun m => (turns one n (before prev m.text) m.rest).map m.andThen) ++ [here s]

/-- The matches at one place, in order of preference. -/
def results : Regex → Option Char → List Char → List Match
  | empty, _, s => [here s]
  | cls _, _, [] => []
  | cls p, _, c :: s => if p c then [⟨[c], s, []⟩] else []
  | seq a b, prev, s =>
    (results a prev s).flatMap fun m => (results b (before prev m.text) m.rest).map m.andThen
  | alt a b, prev, s => results a prev s ++ results b prev s
  | star a, prev, s => turns (results a) s.length prev s
  | group n a, prev, s => (results a prev s).map fun m => { m with groups := (n, m.text) :: m.groups }
  | start, prev, s => if prev.isNone then [here s] else []
  | stop, _, s => if s.isEmpty then [here s] else []
  | boundary, prev, s => if prev.any isWord != s.head?.any isWord then [here s] else []

/-- The leftmost match and the text before it. -/
def find (r : Regex) : Option Char → List Char → Option (List Char × Match)
  | prev, [] => (r.results prev []).head?.map fun m => ([], m)
  | prev, c :: s =>
    match (r.results prev (c :: s)).head? with
    | some m => some ([], m)
    | none => (find r (some c) s).map fun f => (c :: f.1, f.2)

def isMatch (r : Regex) (s : List Char) : Bool := (r.find none s).isSome

/-- Replace every match by `f` of it; `skip` characters still belong to the last match. -/
def replaceFrom (r : Regex) (f : Match → List Char) : Nat → Option Char → List Char → List Char
  | _, _, [] => []
  | skip + 1, _, c :: s => replaceFrom r f skip (some c) s
  | 0, prev, c :: s =>
    match (r.results prev (c :: s)).head? with
    | none => c :: replaceFrom r f 0 (some c) s
    | some m =>
      if m.text.isEmpty then f m ++ c :: replaceFrom r f 0 (some c) s
      else f m ++ replaceFrom r f (m.text.length - 1) (some c) s

/-- All matches replaced, for a pattern without matches at the end of the text. -/
def replaceAll (r : Regex) (f : Match → List Char) (s : List Char) : List Char :=
  replaceFrom r f 0 none s

/-! ### What a match consumes -/

variable {r : Regex} {prev : Option Char} {s : List Char} {m : Match}

theorem andThen_append {m n : Match} (hm : m.text ++ m.rest = s) (hn : n.text ++ n.rest = m.rest) :
    (m.andThen n).text ++ (m.andThen n).rest = s := by
  show (m.text ++ n.text) ++ n.rest = s
  rw [List.append_assoc, hn, hm]

theorem turns_append {one : Option Char → List Char → List Match}
    (hone : ∀ prev s m, m ∈ one prev s → m.text ++ m.rest = s) {n : Nat}
    (h : m ∈ turns one n prev s) : m.text ++ m.rest = s := by
  induction n generalizing prev s m with
  | zero =>
    obtain rfl : m = here s := by simpa [turns] using h
    rfl
  | succ n ih =>
    rcases List.mem_append.1 h with h | h
    · obtain ⟨m₁, h₁, h⟩ := List.mem_flatMap.1 h
      obtain ⟨m₂, h₂, rfl⟩ := List.mem_map.1 h
      exact andThen_append (hone _ _ _ (List.mem_filter.1 h₁).1) (ih h₂)
    · obtain rfl : m = here s := by simpa using h
      rfl

theorem results_append (h : m ∈ r.results prev s) : m.text ++ m.rest = s := by
  induction r generalizing prev s m with
  | empty =>
    obtain rfl : m = here s := by simpa [results] using h
    rfl
  | cls p =>
    cases s with
    | nil => simp [results] at h
    | cons c s =>
      simp only [results] at h
      split_ifs at h
      · obtain rfl := List.mem_singleton.1 h
        rfl
      · simp at h
  | seq a b iha ihb =>
    obtain ⟨m₁, h₁, h⟩ := List.mem_flatMap.1 h
    obtain ⟨m₂, h₂, rfl⟩ := List.mem_map.1 h
    exact andThen_append (iha h₁) (ihb h₂)
  | alt a b iha ihb =>
    rcases List.mem_append.1 h with h | h
    · exact iha h
    · exact ihb h
  | star a ih => exact turns_append (fun _ _ _ => ih) h
  | group n a ih =>
    obtain ⟨m₁, h₁, rfl⟩ := List.mem_map.1 h
    have happ := ih h₁
    exact happ
  | start | stop | boundary =>
    simp only [results] at h
    split_ifs at h
    · obtain rfl := List.mem_singleton.1 h
      rfl
    · simp at h

/-- Patterns every match of which consumes a character. -/
def consumes : Regex → Bool
  | cls _ => true
  | seq a b => a.consumes || b.consumes
  | alt a b => a.consumes && b.consumes
  | group _ a => a.consumes
  | _ => false

theorem text_ne_nil_of_consumes (hr : r.consumes = true) (h : m ∈ r.results prev s) :
    m.text ≠ [] := by
  induction r generalizing prev s m with
  | empty | star | start | stop | boundary => simp [consumes] at hr
  | cls p =>
    cases s with
    | nil => simp [results] at h
    | cons c s =>
      simp only [results] at h
      split_ifs at h
      · obtain rfl := List.mem_singleton.1 h
        simp
      · simp at h
  | seq a b iha ihb =>
    obtain ⟨m₁, h₁, h⟩ := List.mem_flatMap.1 h
    obtain ⟨m₂, h₂, rfl⟩ := List.mem_map.1 h
    show m₁.text ++ m₂.text ≠ []
    rcases Bool.or_eq_true_iff.1 hr with hr | hr
    · exact List.append_ne_nil_of_left_ne_nil (iha hr h₁) _
    · exact List.append_ne_nil_of_right_ne_nil _ (ihb hr h₂)
  | alt a b iha ihb =>
    obtain ⟨ha, hb⟩ := Bool.and_eq_true_iff.1 hr
    rcases List.mem_append.1 h with h | h
    · exact iha ha h
    · exact ihb hb h
  | group n a ih =>
    obtain ⟨m₁, h₁, rfl⟩ := List.mem_map.1 h
    have hne := ih hr h₁
    exact hne

theorem find_mem {pre : List Char} (h : r.find prev s = some (pre, m)) :
    (∃ prev' s', m ∈ r.results prev' s') ∧ pre ++ m.text ++ m.rest = s := by
  induction s generalizing prev pre with
  | nil =>
    obtain ⟨m', hm, heq⟩ := Option.map_eq_some_iff.1 h
    obtain ⟨rfl, rfl⟩ := Prod.mk.inj heq
    have hmem := List.mem_of_mem_head? hm
    exact ⟨⟨_, _, hmem⟩, by simpa using results_append hmem⟩
  | cons c s ih =>
    unfold find at h
    split at h
    · next m' hm =>
      obtain ⟨rfl, rfl⟩ := Prod.mk.inj (Option.some.inj h)
      have hmem := List.mem_of_mem_head? hm
      exact ⟨⟨_, _, hmem⟩, by simpa using results_append hmem⟩
    · obtain ⟨⟨pre', m'⟩, hf, heq⟩ := Option.map_eq_some_iff.1 h
      obtain ⟨rfl, rfl⟩ := Prod.mk.inj heq
      obtain ⟨hmem, happ⟩ := ih hf
      exact ⟨hmem, by simpa using happ⟩

theorem find_rest_lt (hr : r.consumes = true) {pre : List Char}
    (h : r.find prev s = some (pre, m)) : m.rest.length < s.length := by
  obtain ⟨⟨prev', s', hmem⟩, happ⟩ := find_mem h
  have hpos := List.length_pos_iff.2 (text_ne_nil_of_consumes hr hmem)
  rw [← happ, List.length_append, List.length_append]
  omega

end Regex

end RaibitServer.Lib
