import Mathlib.Data.List.DropRight
import RaibitServer.Core.Secrets
import RaibitServer.Lib.Lines

/-!
# Core.EnvFile — the import of `.env` files

`parseDotEnv` of `env-file.ts`.  A line is trimmed, its comments and an `export` are taken off, and the value loses
its quotes.  A trailing comment is taken off first, before the quotes are looked at.

A file of quoted values with comments, blank lines, exports and trailing comments is read back as it was written
exactly if no value has a blank right before a `#` (`dotenv_import_iff`): there the value is cut, and without its
closing quote it keeps the opening one.
-/

namespace RaibitServer.Core

/-- An error with the status code of its response. -/
structure StatusError where
  statusCode : Nat
  message : String
  deriving DecidableEq, Repr

namespace EnvFile

open Lib

abbrev Chars := List Char

structure EnvEntry where
  key : Chars
  value : Chars
  isSecret : Bool
  valueMasked : String
  source : String

structure EnvError where
  line : Nat
  key : Option Chars
  code : String
  message : String

structure ParsedEnv where
  entries : List EnvEntry
  errors : List EnvError
  plainCount : Nat
  secretCount : Nat

/-! ### Lines -/

/-- `split(/\r?\n/)`. -/
def splitLines : Chars → List Chars
  | [] => [[]]
  | '\r' :: '\n' :: text => [] :: splitLines text
  | '\n' :: text => [] :: splitLines text
  | c :: text =>
    match splitLines text with
    | [] => [[c]]
    | line :: lines => (c :: line) :: lines

def trimEnd (s : Chars) : Chars := s.rdropWhile Text.isJsSpace

/-- `s.trim()`. -/
def trim (s : Chars) : Chars := trimEnd (s.dropWhile Text.isJsSpace)

/-- `ENV_KEY_RE`. -/
def envKeyPattern : Chars → Bool
  | [] => false
  | c :: key => (c.isAlpha || c = '_') && key.all fun d => d.isAlphanum || d = '_'

/-- What `.` does not match. -/
def isLineTerminator (c : Char) : Bool := c = '\n' || c = '\r' || c.toNat = 0x2028 || c.toNat = 0x2029

/-- Whether `\s+#.*$` matches from here. -/
def commentHere (s : Chars) : Bool :=
  s.head?.any Text.isJsSpace &&
    match s.dropWhile Text.isJsSpace with
    | '#' :: rest => rest.all fun c => !isLineTerminator c
    | _ => false

/-- `replace(/\s+#.*$/, '')`. -/
def stripComment : Chars → Chars
  | [] => []
  | c :: s => if commentHere (c :: s) then [] else c :: stripComment s

/-- `replace(/\\x/g, by)` for a letter `x`. -/
def unescape (letter replacement : Char) : Chars → Chars
  | '\\' :: c :: s =>
    if c = letter then replacement :: unescape letter replacement s
    else '\\' :: unescape letter replacement (c :: s)
  | c :: s => c :: unescape letter replacement s
  | [] => []

def unquoteEnvValue (value : Chars) : Chars :=
  let trimmed := stripComment value
  if trimmed.head? = some '"' ∧ trimmed.getLast? = some '"' then
    unescape 't' '\t' (unescape 'r' '\r' (unescape 'n' '\n' trimmed.tail.dropLast))
  else if trimmed.head? = some '\'' ∧ trimmed.getLast? = some '\'' then trimmed.tail.dropLast
  else trimmed

/-- `'export '`. -/
def exportWord : Chars := ['e', 'x', 'p', 'o', 'r', 't', ' ']

def withoutExport (trimmed : Chars) : Chars :=
  if exportWord.isPrefixOf trimmed then trim (trimmed.drop 7) else trimmed

def envEntry (source : String) (key value : Chars) : EnvEntry :=
  let isSecret := isSecretKey (String.ofList key)
  let valueMasked := if isSecret then maskSecretValue (String.ofList value) else String.ofList value
  ⟨key, value, isSecret, valueMasked, source⟩

inductive LineResult
  | skip
  | entry (entry : EnvEntry)
  | error (error : EnvError)

/-- The body of the loop, for the line with this index. -/
def parseLine (source : String) (index : Nat) (rawLine : Chars) : LineResult :=
  let trimmed := trim rawLine
  if trimmed = [] ∨ trimmed.head? = some '#' then .skip
  else
    let assignment := withoutExport trimmed
    if '=' ∉ assignment ∨ assignment.head? = some '=' then
      .error ⟨index + 1, none, "INVALID_ENV_LINE", "expected KEY=value"⟩
    else
      let key := trim (assignment.takeWhile (· ≠ '='))
      let value := unquoteEnvValue (trim (assignment.dropWhile (· ≠ '=')).tail)
      if envKeyPattern key = false then
        .error ⟨index + 1, some key, "INVALID_ENV_KEY", "environment keys must match /^[A-Za-z_][A-Za-z0-9_]*$/"⟩
      else .entry (envEntry source key value)

/-- The loop over the lines, from an index on. -/
def parseLines (source : String) : Nat → List Chars → List EnvEntry × List EnvError
  | _, [] => ([], [])
  | index, line :: lines =>
    let rest := parseLines source (index + 1) lines
    match parseLine source index line with
    | .skip => rest
    | .entry entry => (entry :: rest.1, rest.2)
    | .error error => (rest.1, error :: rest.2)

def parsedEnv (entries : List EnvEntry) (errors : List EnvError) : ParsedEnv :=
  ⟨entries, errors, (entries.filter fun entry => !entry.isSecret).length,
    (entries.filter fun entry => entry.isSecret).length⟩

def parseDotEnv (source : String) (throwOnError : Bool) (text : Chars) :
    Except (StatusError × List EnvError) ParsedEnv :=
  let source := if source = "" then ".env" else source
  let (entries, errors) := parseLines source 0 (splitLines text)
  if errors.length ≠ 0 ∧ throwOnError then
    .error (⟨400, "invalid .env content: " ++
      ", ".intercalate (errors.map fun item => "line " ++ toString item.line ++ " " ++ item.code)⟩, errors)
  else
    .ok (parsedEnv entries errors)

/-! ### Files of quoted values -/

/-- A line of such a file. -/
inductive FileLine
  | comment (indent text : Chars)
  | blank (spaces : Chars)
  | pair (exported : Bool) (key value : Chars) (comment : Option Chars)

/-- What stands behind the closing quote. -/
def trailing : Option Chars → Chars
  | none => []
  | some comment => ' ' :: '#' :: comment

def quoted (value : Chars) (comment : Option Chars) : Chars := '"' :: (value ++ '"' :: trailing comment)

def FileLine.text : FileLine → Chars
  | comment indent text => indent ++ '#' :: text
  | blank spaces => spaces
  | pair exported key value note =>
    (if exported then exportWord else []) ++ (key ++ '=' :: quoted value note)

def FileLine.pairs : FileLine → List (Chars × Chars)
  | pair _ key value _ => [(key, value)]
  | _ => []

/-- Printable ASCII without double quotes and backslashes. -/
def isValueChar (c : Char) : Bool := decide (32 ≤ c.toNat) && decide (c.toNat ≤ 126) && c ≠ '"' && c ≠ '\\'

def isBreak (c : Char) : Bool := c = '\n' || c = '\r'

/-- A comment that stays in its line. -/
def StaysInLine (note : Option Chars) : Prop := ∀ text ∈ note, ∀ c ∈ text, isLineTerminator c = false

def FileLine.Proper : FileLine → Prop
  | comment indent text =>
    (∀ c ∈ indent, Text.isJsSpace c = true ∧ isBreak c = false) ∧ ∀ c ∈ text, isBreak c = false
  | blank spaces => ∀ c ∈ spaces, Text.isJsSpace c = true ∧ isBreak c = false
  | pair _ key value note =>
    envKeyPattern key = true ∧ (∀ c ∈ value, isValueChar c = true) ∧ StaysInLine note

/-- The lines joined by line breaks; each says whether the break behind it is CR LF. -/
def render : List (Bool × FileLine) → Chars
  | [] => []
  | [(_, line)] => line.text
  | (crlf, line) :: next :: lines => line.text ++ ((if crlf then ['\r', '\n'] else ['\n']) ++ render (next :: lines))

/-! ### Characters -/

variable {s key t v : Chars} {c : Char} {note : Option Chars} {lines : List (Bool × FileLine)}

theorem none_of_all {p : Char → Bool} (h : s.all (fun c => !p c) = true) : ∀ c ∈ s, p c = false := by
  simpa using h

/-- What the ASCII table shows of printable characters. -/
theorem printable_ascii {P : Char → Prop} (h : ∀ n < 127, 32 ≤ n → P (Char.ofNat n)) (hlow : 32 ≤ c.toNat)
    (hhigh : c.toNat ≤ 126) : P c := by
  have hc := h c.toNat (by omega) hlow
  rwa [Char.ofNat_toNat] at hc

theorem isValueChar_facts (h : isValueChar c = true) :
    (Text.isJsSpace c = true → c = ' ') ∧ isLineTerminator c = false ∧ c ≠ '"' ∧ c ≠ '\\' := by
  simp only [isValueChar, Bool.and_eq_true, decide_eq_true_eq] at h
  have hspace : Text.isJsSpace c = true → c = ' ' :=
    printable_ascii (P := fun c => Text.isJsSpace c = true → c = ' ') (by decide) h.1.1.1 h.1.1.2
  have hbreak : isLineTerminator c = false :=
    printable_ascii (P := fun c => isLineTerminator c = false) (by decide) h.1.1.1 h.1.1.2
  exact ⟨hspace, hbreak, h.1.2, h.2⟩

/-- A character of keys. -/
def isKeyChar (c : Char) : Bool := c.isAlphanum || c = '_'

theorem isKeyChar_facts (h : isKeyChar c = true) :
    Text.isJsSpace c = false ∧ c ≠ '=' ∧ c ≠ '#' ∧ isBreak c = false := by
  have hgraphic : Lines.isGraphic c = true := by
    rcases Bool.or_eq_true_iff.1 h with h | h
    · exact Lines.isGraphic_of_isAlphanum h
    · rw [of_decide_eq_true h]
      decide
  obtain ⟨hlow, hhigh⟩ := Lines.isGraphic_iff.1 hgraphic
  refine printable_ascii (P := fun c => isKeyChar c = true → Text.isJsSpace c = false ∧ c ≠ '=' ∧ c ≠ '#' ∧
    isBreak c = false) (by decide) (by omega) hhigh h

theorem envKeyPattern_chars (h : envKeyPattern key = true) :
    ∃ c rest, key = c :: rest ∧ ∀ d ∈ key, isKeyChar d = true := by
  cases key with
  | nil => cases h
  | cons c rest =>
    refine ⟨c, rest, rfl, fun d hd => ?_⟩
    simp only [envKeyPattern, Bool.and_eq_true, List.all_eq_true] at h
    rcases List.mem_cons.1 hd with rfl | hd
    · rcases Bool.or_eq_true_iff.1 h.1 with hc | hc
      · exact Bool.or_eq_true_iff.2 (.inl (Bool.or_eq_true_iff.2 (.inl hc)))
      · simp [isKeyChar, of_decide_eq_true hc]
    · exact h.2 d hd

/-! ### Lines are cut where they were joined -/

theorem splitLines_append {line : Chars} (h : ∀ c ∈ line, isBreak c = false) {text first : Chars}
    {lines : List Chars} (htext : splitLines text = first :: lines) :
    splitLines (line ++ text) = (line ++ first) :: lines := by
  induction line with
  | nil => exact htext
  | cons c line ih =>
    have hc := h c List.mem_cons_self
    have hrest := ih fun d hd => h d (List.mem_cons_of_mem _ hd)
    rw [List.cons_append]
    unfold splitLines
    split
    · next heq => cases heq
    · next heq =>
      obtain ⟨rfl, -⟩ := List.cons.inj heq
      cases hc
    · next heq =>
      obtain ⟨rfl, -⟩ := List.cons.inj heq
      cases hc
    · next heq =>
      obtain ⟨rfl, rfl⟩ := List.cons.inj heq
      rw [hrest]
      rfl

theorem splitLines_break (crlf : Bool) (text : Chars) :
    splitLines ((if crlf then ['\r', '\n'] else ['\n']) ++ text) = [] :: splitLines text := by
  cases crlf <;> rfl

/-! ### Trimming -/

theorem trimEnd_append {d : Char} (hd : Text.isJsSpace d = false) (x y : Chars) :
    trimEnd (x ++ d :: y) = x ++ d :: trimEnd y := by
  unfold trimEnd List.rdropWhile
  rw [List.reverse_append, List.reverse_cons, List.append_assoc, List.dropWhile_append]
  split
  · next hnil =>
    have hkept : ¬ Text.isJsSpace d = true := by rw [hd]; exact Bool.false_ne_true
    rw [List.isEmpty_iff.1 hnil, List.singleton_append, List.dropWhile_cons_of_neg hkept]
    simp
  · simp

theorem trim_cons (hc : Text.isJsSpace c = false) (s : Chars) : trim (c :: s) = trimEnd (c :: s) := by
  unfold trim
  rw [List.dropWhile_cons_of_neg (by rw [hc]; exact Bool.false_ne_true)]

theorem trim_key (h : ∀ c ∈ key, Text.isJsSpace c = false) : trim key = key := by
  have hfront : key.dropWhile Text.isJsSpace = key := by
    refine List.dropWhile_eq_self_iff.2 fun hlen => ?_
    rw [h _ (List.getElem_mem hlen)]
    exact Bool.false_ne_true
  unfold trim trimEnd
  rw [hfront]
  refine List.rdropWhile_eq_self_iff.2 fun hne => ?_
  rw [h _ (List.getLast_mem hne)]
  exact Bool.false_ne_true

theorem trim_spaces {spaces : Chars} (h : ∀ c ∈ spaces, Text.isJsSpace c = true) (s : Chars) :
    trim (spaces ++ s) = trim s := by
  unfold trim
  rw [List.dropWhile_append_of_pos h]

theorem trimEnd_trailing (note : Option Chars) : trimEnd (trailing note) = trailing (note.map trimEnd) := by
  cases note with
  | none => rfl
  | some text => exact trimEnd_append (by decide) [' '] text

theorem trimEnd_quoted (value : Chars) (note : Option Chars) :
    trimEnd (quoted value note) = quoted value (note.map trimEnd) := by
  have h := trimEnd_append (by decide : Text.isJsSpace '"' = false) ('"' :: value) (trailing note)
  rw [trimEnd_trailing] at h
  exact h

theorem StaysInLine.trimmed (h : StaysInLine note) : StaysInLine (note.map trimEnd) := by
  intro text htext c hc
  obtain ⟨whole, hwhole, rfl⟩ := Option.mem_map.1 htext
  exact h whole hwhole c ((List.rdropWhile_prefix _ _).subset hc)

theorem trailing_inLine (h : StaysInLine note) : ∀ c ∈ trailing note, isLineTerminator c = false := by
  cases note with
  | none => exact fun c hc => nomatch hc
  | some text =>
    intro c hc
    rcases List.mem_cons.1 hc with rfl | hc
    · decide
    rcases List.mem_cons.1 hc with rfl | hc
    · decide
    · exact h text rfl c hc

/-! ### Comments -/

theorem commentHere_of_not_space (h : Text.isJsSpace c = false) (s : Chars) : commentHere (c :: s) = false := by
  simp [commentHere, h]

/-- A comment found inside a value begins at a blank and a `#` of it. -/
theorem blank_hash_of_dropWhile {r : Chars} (hv : ∀ c ∈ v, isValueChar c = true)
    (h : (v ++ '"' :: t).dropWhile Text.isJsSpace = '#' :: r) : [' ', '#'] <:+: ' ' :: v := by
  induction v with
  | nil =>
    have hquote : ('"' :: t).dropWhile Text.isJsSpace = '"' :: t := rfl
    rw [List.nil_append, hquote] at h
    cases h
  | cons d v ih =>
    rw [List.cons_append] at h
    cases hd : Text.isJsSpace d with
    | true =>
      rw [List.dropWhile_cons_of_pos hd] at h
      rw [(isValueChar_facts (hv d List.mem_cons_self)).1 hd]
      exact List.infix_cons_iff.2 (.inr (ih (fun c hc => hv c (List.mem_cons_of_mem _ hc)) h))
    | false =>
      rw [List.dropWhile_cons_of_neg (by rw [hd]; exact Bool.false_ne_true)] at h
      rw [(List.cons.inj h).1]
      exact List.infix_cons_iff.2 (.inl ⟨v, rfl⟩)

theorem commentHere_value (hv : ∀ d ∈ c :: v, isValueChar d = true) (h : commentHere (c :: (v ++ '"' :: t)) = true) :
    [' ', '#'] <:+: c :: v := by
  simp only [commentHere, List.head?_cons, Option.any_some, Bool.and_eq_true] at h
  obtain ⟨hspace, hrest⟩ := h
  rw [List.dropWhile_cons_of_pos hspace] at hrest
  rw [(isValueChar_facts (hv c List.mem_cons_self)).1 hspace]
  split at hrest
  · next heq => exact blank_hash_of_dropWhile (fun d hd => hv d (List.mem_cons_of_mem _ hd)) heq
  · cases hrest

theorem stripComment_clean (hv : ∀ c ∈ v, isValueChar c = true) (hclean : ¬ [' ', '#'] <:+: v) (t : Chars) :
    stripComment (v ++ '"' :: t) = v ++ '"' :: stripComment t := by
  induction v with
  | nil =>
    rw [List.nil_append, List.nil_append, stripComment, commentHere_of_not_space (by decide)]
    rfl
  | cons c v ih =>
    have hc : ¬ commentHere (c :: (v ++ '"' :: t)) = true := fun h => hclean (commentHere_value hv h)
    have hrest := ih (fun d hd => hv d (List.mem_cons_of_mem _ hd)) fun h => hclean (List.infix_cons_iff.2 (.inr h))
    rw [List.cons_append, stripComment, if_neg hc, hrest, List.cons_append]

theorem commentHere_blank_hash (hs : ∀ c ∈ s, isLineTerminator c = false) : commentHere (' ' :: '#' :: s) = true := by
  have hdrop : (' ' :: '#' :: s).dropWhile Text.isJsSpace = '#' :: s := rfl
  simp only [commentHere, hdrop, List.head?_cons, Option.any_some, Bool.and_eq_true, List.all_eq_true]
  exact ⟨by decide, fun c hc => by rw [hs c hc]; rfl⟩

/-- A blank and a `#` in a value cut it. -/
theorem stripComment_cuts (hv : ∀ c ∈ v, isValueChar c = true) (hhash : [' ', '#'] <:+: v)
    (ht : ∀ c ∈ t, isLineTerminator c = false) : ∃ u, u <+: v ∧ u ≠ v ∧ stripComment (v ++ '"' :: t) = u := by
  induction v with
  | nil => cases List.infix_nil.1 hhash
  | cons c v ih =>
    rw [List.cons_append, stripComment]
    split
    · exact ⟨[], List.nil_prefix, List.cons_ne_nil c v |>.symm, rfl⟩
    · next hc =>
      rcases List.infix_cons_iff.1 hhash with ⟨w, hw⟩ | hhash
      · -- at the head of the value the comment would begin here
        rw [← List.cons_append, ← hw] at hc
        refine absurd (commentHere_blank_hash fun d hd => ?_) hc
        rcases List.mem_append.1 hd with hd | hd
        · refine (isValueChar_facts (hv d ?_)).2.1
          rw [← hw]
          exact List.mem_cons_of_mem _ (List.mem_cons_of_mem _ hd)
        · rcases List.mem_cons.1 hd with rfl | hd
          · decide
          · exact ht d hd
      · obtain ⟨u, hu, hne, hstrip⟩ := ih (fun d hd => hv d (List.mem_cons_of_mem _ hd)) hhash
        refine ⟨c :: u, (List.prefix_cons_inj c).2 hu, fun heq => hne (List.cons.inj heq).2, ?_⟩
        rw [hstrip]

theorem stripComment_trailing (h : StaysInLine note) : stripComment (trailing note) = [] := by
  cases note with
  | none => rfl
  | some text =>
    rw [trailing, stripComment, if_pos (commentHere_blank_hash (h text rfl))]

/-! ### Quotes -/

theorem unescape_plain (letter replacement : Char) (h : '\\' ∉ s) : unescape letter replacement s = s := by
  induction s with
  | nil => rfl
  | cons c s ih =>
    have hrest := ih fun hmem => h (List.mem_cons_of_mem _ hmem)
    unfold unescape
    split
    · next heq =>
      obtain ⟨rfl, -⟩ := List.cons.inj heq
      exact absurd List.mem_cons_self h
    · next heq =>
      obtain ⟨rfl, rfl⟩ := List.cons.inj heq
      rw [hrest]
    · next heq => cases heq

theorem stripComment_quoted (value : Chars) (note : Option Chars) :
    stripComment (quoted value note) = '"' :: stripComment (value ++ '"' :: trailing note) := by
  rw [quoted, stripComment, commentHere_of_not_space (by decide)]
  rfl

/-- **A quoted value loses its quotes and its trailing comment exactly if it has no blank before a `#`.** -/
theorem unquote_quoted (hv : ∀ c ∈ v, isValueChar c = true) (hnote : StaysInLine note) :
    unquoteEnvValue (quoted v note) = v ↔ ¬ [' ', '#'] <:+: v := by
  have hquote : '"' ∉ v := fun hmem => (isValueChar_facts (hv _ hmem)).2.2.1 rfl
  have hslash : '\\' ∉ v := fun hmem => (isValueChar_facts (hv _ hmem)).2.2.2 rfl
  constructor
  · intro hread hhash
    obtain ⟨u, hu, hne, hstrip⟩ := stripComment_cuts hv hhash (trailing_inLine hnote)
    rw [unquoteEnvValue, stripComment_quoted, hstrip] at hread
    have hsingle : ¬ (('"' :: u).head? = some '\'' ∧ ('"' :: u).getLast? = some '\'') := fun h => nomatch h.1
    cases u with
    | nil => exact hne hread
    | cons d u =>
      -- the last character left is one of the value, so no quote is taken off
      have hlast : ¬ (('"' :: d :: u).head? = some '"' ∧ ('"' :: d :: u).getLast? = some '"') := by
        rintro ⟨-, h⟩
        rw [List.getLast?_cons_cons] at h
        exact hquote (hu.subset (List.mem_of_getLast? h))
      simp only [if_neg hlast, if_neg hsingle] at hread
      exact hquote (hread ▸ List.mem_cons_self)
  · intro hclean
    rw [unquoteEnvValue, stripComment_quoted, stripComment_clean hv hclean, stripComment_trailing hnote]
    have hends : ('"' :: (v ++ ['"'])).head? = some '"' ∧ ('"' :: (v ++ ['"'])).getLast? = some '"' :=
      ⟨rfl, by rw [← List.cons_append, List.getLast?_concat]⟩
    simp only [if_pos hends, List.tail_cons, List.dropLast_concat]
    rw [unescape_plain _ _ hslash, unescape_plain _ _ hslash, unescape_plain _ _ hslash]

/-! ### One line -/

/-- No key is taken for an `export`: it has no blank before its `=`. -/
theorem not_export (hkey : ∀ c ∈ key, isKeyChar c = true) (s : Chars) :
    exportWord.isPrefixOf (key ++ '=' :: s) = false := by
  refine Bool.eq_false_iff.2 fun h => ?_
  have hexport := List.isPrefixOf_iff_prefix.1 h
  have hassign : key ++ ['='] <+: key ++ '=' :: s := ⟨s, by simp⟩
  rcases List.prefix_or_prefix_of_prefix hexport hassign with h | h
  · have hblank : ' ' ∈ key ++ ['='] := h.subset (by decide)
    rcases List.mem_append.1 hblank with hmem | hmem
    · exact absurd (hkey _ hmem) (by decide)
    · exact absurd hmem (by decide)
  · exact absurd (h.subset (List.mem_append_right key List.mem_cons_self)) (by decide)

/-- An assignment, with its `export` taken off and trimmed. -/
theorem assignment_parts (hkey : ∀ c ∈ key, isKeyChar c = true) (s : Chars) :
    (key ++ '=' :: s).takeWhile (· ≠ '=') = key ∧ ((key ++ '=' :: s).dropWhile (· ≠ '=')).tail = s := by
  have hne : ∀ c ∈ key, decide (c ≠ '=') = true := fun c hc => decide_eq_true (isKeyChar_facts (hkey c hc)).2.1
  constructor
  · rw [List.takeWhile_append_of_pos hne]
    simp
  · rw [List.dropWhile_append_of_pos hne]
    simp

theorem trimEnd_assignment (key value : Chars) (note : Option Chars) :
    trimEnd (key ++ '=' :: quoted value note) = key ++ '=' :: quoted value (note.map trimEnd) := by
  rw [trimEnd_append (by decide), trimEnd_quoted]

theorem trim_assignment (hkey : envKeyPattern key = true) (value : Chars) (note : Option Chars) :
    trim (key ++ '=' :: quoted value note) = key ++ '=' :: quoted value (note.map trimEnd) := by
  obtain ⟨c, rest, rfl, hchars⟩ := envKeyPattern_chars hkey
  rw [← trimEnd_assignment, List.cons_append, trim_cons (isKeyChar_facts (hchars c List.mem_cons_self)).1]

/-- Trimmed and with the `export` taken off, a pair's line has only lost an end of its comment. -/
theorem withoutExport_trim (exported : Bool) (hkey : envKeyPattern key = true) (v : Chars) (hnote : StaysInLine note) :
    ∃ note', StaysInLine note' ∧
      withoutExport (trim (FileLine.pair exported key v note).text) = key ++ '=' :: quoted v note' := by
  obtain ⟨_, _, -, hchars⟩ := envKeyPattern_chars hkey
  unfold withoutExport
  cases exported with
  | false =>
    have htrim : trim (FileLine.pair false key v note).text = key ++ '=' :: quoted v (note.map trimEnd) :=
      trim_assignment hkey v note
    rw [htrim, not_export hchars]
    exact ⟨_, hnote.trimmed, rfl⟩
  | true =>
    have htrim : trim (FileLine.pair true key v note).text =
        exportWord ++ (key ++ '=' :: quoted v (note.map trimEnd)) := by
      have hend := trimEnd_append (by decide : Text.isJsSpace '=' = false) (exportWord ++ key) (quoted v note)
      rw [trimEnd_quoted, List.append_assoc, List.append_assoc] at hend
      exact (trim_cons (by decide) _).trans hend
    rw [htrim, if_pos (List.isPrefixOf_iff_prefix.2 (List.prefix_append _ _)), exportWord]
    exact ⟨_, hnote.trimmed.trimmed, trim_assignment hkey v (note.map trimEnd)⟩

/-- A pair's line begins with a letter or an underscore. -/
theorem trim_pair_head (exported : Bool) (hkey : envKeyPattern key = true) (v : Chars) (note : Option Chars) :
    ∃ c line, trim (FileLine.pair exported key v note).text = c :: line ∧ c ≠ '#' := by
  obtain ⟨c, rest, hcons, hchars⟩ := envKeyPattern_chars hkey
  have hc := isKeyChar_facts (hchars c (by rw [hcons]; exact List.mem_cons_self))
  cases exported with
  | false =>
    refine ⟨c, rest ++ '=' :: quoted v (note.map trimEnd), ?_, hc.2.2.1⟩
    rw [← List.cons_append, ← hcons]
    exact trim_assignment hkey v note
  | true =>
    have hend := trimEnd_append (by decide : Text.isJsSpace 'e' = false) []
      (exportWord.tail ++ (key ++ '=' :: quoted v note))
    exact ⟨'e', _, (trim_cons (by decide) _).trans hend, by decide⟩

/-- **What the loop does with a pair's line.** -/
theorem parseLine_pair (source : String) (index : Nat) (exported : Bool)
    (h : (FileLine.pair exported key v note).Proper) :
    ∃ value, parseLine source index (FileLine.pair exported key v note).text = .entry (envEntry source key value) ∧
      (value = v ↔ ¬ [' ', '#'] <:+: v) := by
  obtain ⟨hkey, hv, hnote⟩ := h
  obtain ⟨c, rest, hcons, hchars⟩ := envKeyPattern_chars hkey
  obtain ⟨first, line, htrim, hfirst⟩ := trim_pair_head exported hkey v note
  obtain ⟨note', hnote', hwithout⟩ := withoutExport_trim exported hkey v hnote
  obtain ⟨hbefore, hbehind⟩ := assignment_parts hchars (quoted v note')
  have hpair : ¬ (trim (FileLine.pair exported key v note).text = [] ∨
      (trim (FileLine.pair exported key v note).text).head? = some '#') := by
    rw [htrim]
    rintro (h | h)
    · cases h
    · exact hfirst (Option.some.inj h)
  have hassign : ¬ ('=' ∉ key ++ '=' :: quoted v note' ∨ (key ++ '=' :: quoted v note').head? = some '=') := by
    rintro (h | h)
    · exact h (List.mem_append_right key List.mem_cons_self)
    · rw [hcons, List.cons_append, List.head?_cons] at h
      exact (isKeyChar_facts (hchars c (by rw [hcons]; exact List.mem_cons_self))).2.1 (Option.some.inj h)
  have htrimKey : trim key = key := trim_key fun d hd => (isKeyChar_facts (hchars d hd)).1
  have htrimValue : trim (quoted v note') = quoted v (note'.map trimEnd) := by
    rw [← trimEnd_quoted]
    exact trim_cons (by decide) _
  refine ⟨unquoteEnvValue (quoted v (note'.map trimEnd)), ?_, unquote_quoted hv hnote'.trimmed⟩
  simp only [parseLine, if_neg hpair, hwithout, if_neg hassign, hbefore, hbehind, htrimKey, htrimValue, hkey,
    Bool.true_eq_false, if_false]

/-- Comments and blank lines are passed over. -/
theorem parseLine_skip (source : String) (index : Nat) {line : FileLine} (h : line.Proper) (hnone : line.pairs = []) :
    parseLine source index line.text = .skip := by
  have hskip : trim line.text = [] ∨ (trim line.text).head? = some '#' := by
    cases line with
    | comment indent text =>
      right
      have hend := trimEnd_append (by decide : Text.isJsSpace '#' = false) [] text
      rw [FileLine.text, trim_spaces fun c hc => (h.1 c hc).1, trim_cons (by decide)]
      exact congrArg List.head? hend
    | blank spaces =>
      left
      rw [FileLine.text, ← List.append_nil spaces, trim_spaces fun c hc => (h c hc).1]
      rfl
    | pair exported key value note => cases hnone
  simp only [parseLine, if_pos hskip]

/-! ### The whole file -/

theorem FileLine.text_noBreak {line : FileLine} (h : line.Proper) : ∀ c ∈ line.text, isBreak c = false := by
  have hinLine : ∀ {c : Char}, isLineTerminator c = false → isBreak c = false := by
    intro c hc
    simp only [isLineTerminator, isBreak, Bool.or_eq_false_iff] at hc ⊢
    exact hc.1.1
  intro c hc
  cases line with
  | comment indent text =>
    rcases List.mem_append.1 hc with hc | hc
    · exact (h.1 c hc).2
    · rcases List.mem_cons.1 hc with rfl | hc
      · decide
      · exact h.2 c hc
  | blank spaces => exact (h c hc).2
  | pair exported key v note =>
    obtain ⟨hkey, hv, hnote⟩ := h
    obtain ⟨_, _, -, hchars⟩ := envKeyPattern_chars hkey
    have hquoted : ∀ d ∈ quoted v note, isBreak d = false := by
      intro d hd
      rcases List.mem_cons.1 hd with rfl | hd
      · decide
      rcases List.mem_append.1 hd with hd | hd
      · exact hinLine (isValueChar_facts (hv d hd)).2.1
      rcases List.mem_cons.1 hd with rfl | hd
      · decide
      · exact hinLine (trailing_inLine hnote d hd)
    have hassign : ∀ d ∈ key ++ '=' :: quoted v note, isBreak d = false := by
      intro d hd
      rcases List.mem_append.1 hd with hd | hd
      · exact (isKeyChar_facts (hchars d hd)).2.2.2
      rcases List.mem_cons.1 hd with rfl | hd
      · decide
      · exact hquoted d hd
    rcases List.mem_append.1 hc with hc | hc
    · cases exported with
      | false => cases hc
      | true => exact none_of_all (by decide : exportWord.all (fun d => !isBreak d) = true) c hc
    · exact hassign c hc

theorem splitLines_render {line : Bool × FileLine} (h : ∀ l ∈ line :: lines, l.2.Proper) :
    splitLines (render (line :: lines)) = (line :: lines).map fun l => l.2.text := by
  induction lines generalizing line with
  | nil =>
    have hline := splitLines_append (FileLine.text_noBreak (h line List.mem_cons_self)) (rfl : splitLines [] = [[]])
    rw [List.append_nil] at hline
    exact hline
  | cons next lines ih =>
    have hrest := ih fun l hl => h l (List.mem_cons_of_mem _ hl)
    have hline := splitLines_append (FileLine.text_noBreak (h line List.mem_cons_self))
      (splitLines_break line.1 (render (next :: lines)))
    rw [hrest, List.append_nil] at hline
    exact hline

/-- The pairs of a file, in their order. -/
def pairsOf (lines : List (Bool × FileLine)) : List (Chars × Chars) := lines.flatMap fun line => line.2.pairs

/-- **What the loop makes of the lines of a file.** -/
theorem parseLines_file (source : String) (index : Nat) (h : ∀ line ∈ lines, line.2.Proper) :
    ∃ read : List (Chars × Chars),
      parseLines source index (lines.map fun line => line.2.text) =
        (read.map fun pair => envEntry source pair.1 pair.2, []) ∧
      (read = pairsOf lines ↔ ∀ pair ∈ pairsOf lines, ¬ [' ', '#'] <:+: pair.2) := by
  induction lines generalizing index with
  | nil => exact ⟨[], rfl, by simp [pairsOf]⟩
  | cons line lines ih =>
    obtain ⟨read, hread, hiff⟩ := ih (index + 1) fun l hl => h l (List.mem_cons_of_mem _ hl)
    have hpairs : pairsOf (line :: lines) = line.2.pairs ++ pairsOf lines := rfl
    have hline := h line List.mem_cons_self
    by_cases hnone : line.2.pairs = []
    · rw [hpairs, hnone, List.nil_append]
      refine ⟨read, ?_, hiff⟩
      rw [List.map_cons, parseLines, parseLine_skip source index hline hnone]
      exact hread
    · obtain ⟨exported, key, v, note, heq⟩ : ∃ exported key v note, line.2 = .pair exported key v note := by
        cases hl : line.2 with
        | comment | blank => exact absurd (by rw [hl]; rfl) hnone
        | pair exported key v note => exact ⟨exported, key, v, note, rfl⟩
      obtain ⟨value, hparse, hvalue⟩ := parseLine_pair source index exported (heq ▸ hline)
      refine ⟨(key, value) :: read, ?_, ?_⟩
      · rw [List.map_cons, parseLines, heq, hparse, hread]
        rfl
      · rw [hpairs, heq, FileLine.pairs, List.singleton_append, List.cons_eq_cons, List.forall_mem_cons, hiff,
          Prod.mk.injEq, and_iff_right rfl, hvalue]

/-- The file of `KEY="value"` lines alone. -/
def plain (pairs : List (Chars × Chars)) : List (Bool × FileLine) :=
  pairs.map fun pair => (false, .pair false pair.1 pair.2 none)

theorem pairsOf_plain (pairs : List (Chars × Chars)) : pairsOf (plain pairs) = pairs := by
  induction pairs with
  | nil => rfl
  | cons pair pairs ih => exact congrArg (pair :: ·) ih

theorem plain_proper (h : ∀ line ∈ lines, line.2.Proper) : ∀ line ∈ plain (pairsOf lines), line.2.Proper := by
  intro line hline
  obtain ⟨pair, hpair, rfl⟩ := List.mem_map.1 hline
  obtain ⟨⟨crlf, decorated⟩, hmem, hin⟩ := List.mem_flatMap.1 hpair
  cases decorated with
  | comment | blank => cases hin
  | pair exported key v note =>
    obtain ⟨hkey, hv, -⟩ := h _ hmem
    rw [List.mem_singleton.1 hin]
    exact ⟨hkey, hv, fun text htext => nomatch htext⟩

/-- The lines of a file as the loop gets them; an empty file is one empty line. -/
theorem parse_render (source : String) (h : ∀ line ∈ lines, line.2.Proper) :
    parseLines source 0 (splitLines (render lines)) = parseLines source 0 (lines.map fun line => line.2.text) := by
  cases lines with
  | nil => rfl
  | cons line lines => rw [splitLines_render h]

/-- What a file of quoted values gives, up to how the values are read. -/
theorem parseDotEnv_file (source : String) (throwOnError : Bool) (h : ∀ line ∈ lines, line.2.Proper) :
    ∃ read : List (Chars × Chars), parseDotEnv source throwOnError (render lines) = .ok (parsedEnv
        (read.map fun pair => envEntry (if source = "" then ".env" else source) pair.1 pair.2) []) ∧
      (read = pairsOf lines ↔ ∀ pair ∈ pairsOf lines, ¬ [' ', '#'] <:+: pair.2) := by
  obtain ⟨read, hread, hiff⟩ := parseLines_file (if source = "" then ".env" else source) 0 h
  refine ⟨read, ?_, hiff⟩
  simp only [parseDotEnv, parse_render _ h, hread, List.length_nil, ne_eq, not_true_eq_false, false_and, if_false]

/-- **A file of quoted values is imported as it was written, like the bare `KEY="value"` lines of its pairs, exactly if
no value has a blank right before a `#`.** -/
theorem dotenv_import_iff (source : String) (throwOnError : Bool) (lines : List (Bool × FileLine))
    (h : ∀ line ∈ lines, line.2.Proper) :
    (∃ parsed, parseDotEnv source throwOnError (render lines) = .ok parsed ∧
      parseDotEnv source throwOnError (render (plain (pairsOf lines))) = .ok parsed ∧
      parsed.errors = [] ∧ (parsed.entries.map fun entry => (entry.key, entry.value)) = pairsOf lines) ↔
    ∀ pair ∈ pairsOf lines, ¬ [' ', '#'] <:+: pair.2 := by
  obtain ⟨read, hok, hiff⟩ := parseDotEnv_file source throwOnError h
  have hpairs : ((read.map fun pair => envEntry (if source = "" then ".env" else source) pair.1 pair.2).map
      fun entry => (entry.key, entry.value)) = read := by
    rw [List.map_map]
    exact List.map_id read
  constructor
  · rintro ⟨parsed, hparsed, -, -, hsame⟩
    rw [hok] at hparsed
    rw [← Except.ok.inj hparsed] at hsame
    exact hiff.1 (hpairs.symm.trans hsame)
  · intro hclean
    obtain ⟨bare, hbare, hbareIff⟩ := parseDotEnv_file source throwOnError (plain_proper h)
    rw [pairsOf_plain] at hbareIff
    have hread : read = pairsOf lines := hiff.2 hclean
    have hsame : bare = read := (hbareIff.2 hclean).trans hread.symm
    rw [hsame] at hbare
    exact ⟨_, hok, hbare, rfl, hpairs.trans hread⟩

namespace ImportSample

/-- A comment, a blank line, an export, and a value with `#`, `=` and blanks. -/
def file : List (Bool × FileLine) :=
  [(true, .comment [' '] ['=', 'x']),
    (false, .pair true ['A', '_', '1'] ['b', '#', ' ', '=', ' ', '\''] (some [' ', 'n'])),
    (true, .blank ['\t']), (false, .pair false ['B'] [] none)]

theorem file_proper : ∀ line ∈ file, line.2.Proper := by
  intro line hline
  simp only [file, List.mem_cons, List.not_mem_nil, or_false] at hline
  rcases hline with rfl | rfl | rfl | rfl
  · refine ⟨fun c hc => ?_, none_of_all (by decide)⟩
    rw [List.mem_singleton.1 hc]
    decide
  · refine ⟨by decide, List.all_eq_true.1 (by decide), fun text htext => ?_⟩
    obtain rfl := Option.some.inj htext
    exact none_of_all (by decide)
  · intro c hc
    rw [List.mem_singleton.1 hc]
    decide
  · exact ⟨by decide, List.all_eq_true.1 (by decide), fun text htext => nomatch htext⟩

end ImportSample

theorem dotenv_import_iff_decorated :
    (∀ line ∈ ImportSample.file, line.2.Proper) ∧
    ∃ parsed, parseDotEnv "" true (render ImportSample.file) = .ok parsed ∧
      parseDotEnv "" true (render (plain (pairsOf ImportSample.file))) = .ok parsed ∧
      parsed.errors = [] ∧
      (parsed.entries.map fun entry => (entry.key, entry.value)) = pairsOf ImportSample.file :=
  ⟨ImportSample.file_proper, (dotenv_import_iff "" true ImportSample.file ImportSample.file_proper).2 (by decide)⟩

/-- `A="b # c"` is imported as `"b`. -/
theorem blank_hash_cuts_value :
    (FileLine.pair false ['A'] ['b', ' ', '#', ' ', 'c'] none).Proper ∧
    ((parseDotEnv ".env" true (render (plain [(['A'], ['b', ' ', '#', ' ', 'c'])]))).toOption.map
      fun parsed => parsed.entries.map fun entry => (entry.key, entry.value)) = some [(['A'], ['"', 'b'])] :=
  ⟨⟨by decide, List.all_eq_true.1 (by decide), fun text htext => nomatch htext⟩, by decide⟩

end EnvFile

end RaibitServer.Core
