import Mathlib.Data.UInt
import RaibitServer.Lib.Text

/-!
# Lib.Lines — texts of lines, lines of fields, fields of digits

A line-oriented format writes each record as fields between single spaces and ends it with a newline.
Cutting at the separator and joining with it are inverse as soon as no field holds the separator; a
number field is canonical when it is what printing its value gives back.
-/

namespace RaibitServer.Lib.Lines

/-! ### Bytes and characters -/

/-- One character for a byte. -/
def ofBytes (bytes : List UInt8) : List Char := bytes.map fun b => Char.ofNat b.toNat

/-- One byte for a character below 256. -/
def toBytes (text : List Char) : List UInt8 := text.map fun c => UInt8.ofNat c.toNat

theorem toNat_ofNat_byte (b : UInt8) : (Char.ofNat b.toNat).toNat = b.toNat := by
  have hb : b.toNat < 256 := b.toNat_lt
  have hvalid : b.toNat.isValidChar := Or.inl (by omega)
  unfold Char.ofNat
  rw [dif_pos hvalid]
  rfl

theorem toBytes_ofBytes (bytes : List UInt8) : toBytes (ofBytes bytes) = bytes := by
  unfold toBytes ofBytes
  rw [List.map_map]
  conv_rhs => rw [← List.map_id bytes]
  refine List.map_congr_left fun b _ => ?_
  show UInt8.ofNat (Char.ofNat b.toNat).toNat = b
  rw [toNat_ofNat_byte, UInt8.ofNat_toNat]

variable {text : List Char} {fields lines : List (List Char)} {c : Char} {n w : Nat}

theorem ofBytes_toBytes (h : ∀ c ∈ text, c.toNat < 256) : ofBytes (toBytes text) = text := by
  unfold toBytes ofBytes
  rw [List.map_map]
  conv_rhs => rw [← List.map_id text]
  refine List.map_congr_left fun c hc => ?_
  show Char.ofNat (UInt8.ofNat c.toNat).toNat = c
  rw [UInt8.toNat_ofNat_of_lt' (h c hc), Char.ofNat_toNat]

/-! ### Fields and lines -/

/-- `strings.CutPrefix`. -/
def cutPrefix (pre text : List Char) : Option (List Char) :=
  if pre.isPrefixOf text then some (text.drop pre.length) else none

theorem cutPrefix_eq_some {pre rest : List Char} : cutPrefix pre text = some rest ↔ text = pre ++ rest := by
  unfold cutPrefix
  by_cases h : pre.isPrefixOf text
  · obtain ⟨t, rfl⟩ := List.isPrefixOf_iff_prefix.1 h
    rw [if_pos h, List.drop_left]
    exact ⟨fun e => by rw [Option.some.inj e], fun e => by rw [List.append_cancel_left e]⟩
  · rw [if_neg h]
    refine ⟨fun e => (nomatch e), fun e => absurd ?_ h⟩
    rw [e]
    exact List.isPrefixOf_iff_prefix.2 (List.prefix_append _ _)

/-- Fields with a space between two. -/
def spaced (fields : List (List Char)) : List Char := [' '].intercalate fields

def splitFields (line : List Char) : List (List Char) := line.splitOn ' '

theorem spaced_splitFields (line : List Char) : spaced (splitFields line) = line :=
  List.intercalate_splitOn ' '

theorem splitFields_spaced (h : ∀ f ∈ fields, ' ' ∉ f) (hne : fields ≠ []) : splitFields (spaced fields) = fields :=
  List.splitOn_intercalate ' ' h hne

theorem spaced_cons {f g : List Char} : spaced (f :: g :: fields) = f ++ ' ' :: spaced (g :: fields) := by
  unfold spaced
  rw [List.intercalate_cons_cons, List.append_assoc]
  rfl

theorem spaced_singleton (f : List Char) : spaced [f] = f := by simp [spaced]

theorem mem_spaced (h : c ∈ spaced fields) : c = ' ' ∨ ∃ f ∈ fields, c ∈ f := by
  induction fields with
  | nil => simp [spaced] at h
  | cons f fields ih =>
    cases fields with
    | nil => exact .inr ⟨f, List.mem_cons_self, by simpa [spaced] using h⟩
    | cons g fields =>
      rw [spaced_cons, List.mem_append, List.mem_cons] at h
      rcases h with h | h | h
      · exact .inr ⟨f, List.mem_cons_self, h⟩
      · exact .inl h
      · rcases ih h with h | ⟨f', hf', hc⟩
        · exact .inl h
        · exact .inr ⟨f', List.mem_cons_of_mem _ hf', hc⟩

/-- Every line with its newline. -/
def unlines (lines : List (List Char)) : List Char := lines.flatMap fun line => line ++ ['\n']

/-- The lines of a text and, last, what follows its last newline. -/
def segments (text : List Char) : List (List Char) := text.splitOn '\n'

theorem unlines_eq_intercalate (lines : List (List Char)) :
    unlines lines = ['\n'].intercalate (lines ++ [[]]) := by
  induction lines with
  | nil => rfl
  | cons line lines ih =>
    have hcons : unlines (line :: lines) = line ++ ['\n'] ++ unlines lines := rfl
    obtain ⟨next, rest, hnext⟩ : ∃ next rest, lines ++ [[]] = next :: rest :=
      List.exists_cons_of_ne_nil (by simp)
    rw [hcons, ih, List.cons_append, hnext, List.intercalate_cons_cons]

theorem segments_unlines (h : ∀ line ∈ lines, '\n' ∉ line) : segments (unlines lines) = lines ++ [[]] := by
  unfold segments
  rw [unlines_eq_intercalate]
  refine List.splitOn_intercalate '\n' ?_ (by simp)
  intro line hline
  rcases List.mem_append.1 hline with hline | hline
  · exact h line hline
  · rw [List.mem_singleton.1 hline]
    exact List.not_mem_nil

theorem eq_unlines_of_segments (h : segments text = lines ++ [[]]) : text = unlines lines := by
  rw [unlines_eq_intercalate, ← h]
  exact (List.intercalate_splitOn '\n').symm

/-! ### Decimal fields -/

/-- `strconv.FormatUint(n, 10)`. -/
def formatUint (n : Nat) : List Char := Nat.toDigits 10 n

/-- `strconv.ParseUint(text, 10, 64)`. -/
def parseUint (text : List Char) : Option Nat :=
  if text ≠ [] ∧ text.all Char.isDigit ∧ Nat.ofDigitChars 10 text 0 < 2 ^ 64 then
    some (Nat.ofDigitChars 10 text 0)
  else none

/-- The verb `%0wd`. -/
def zeroPad (w n : Nat) : List Char := (formatUint n).leftpad w '0'

theorem isDigit_of_mem_zeroPad (h : c ∈ zeroPad w n) : c.isDigit := by
  rcases List.mem_append.1 h with h | h
  · rw [List.eq_of_mem_replicate h]
    decide
  · exact Nat.isDigit_of_mem_toDigits (by omega) (by omega) h

theorem isDigit_of_mem_formatUint (h : c ∈ formatUint n) : c.isDigit :=
  Nat.isDigit_of_mem_toDigits (by omega) (by omega) h

theorem parseUint_zeroPad (h : n < 2 ^ 64) : parseUint (zeroPad w n) = some n := by
  have hne : zeroPad w n ≠ [] := by
    intro e
    exact Nat.toDigits_ne_nil (List.append_eq_nil_iff.1 e).2
  have hdigits : (zeroPad w n).all Char.isDigit = true :=
    List.all_eq_true.2 fun c hc => isDigit_of_mem_zeroPad hc
  have hvalue : Nat.ofDigitChars 10 (zeroPad w n) 0 = n := by
    unfold zeroPad formatUint List.leftpad
    rw [Nat.ofDigitChars_append, Nat.ofDigitChars_replicate_zero, Nat.mul_zero,
      Nat.ofDigitChars_ten_toDigits]
  unfold parseUint
  rw [hvalue, if_pos ⟨hne, hdigits, h⟩]

theorem zeroPad_zero (n : Nat) : zeroPad 0 n = formatUint n := by
  unfold zeroPad List.leftpad
  rw [Nat.zero_sub, List.replicate_zero, List.nil_append]

theorem parseUint_formatUint (h : n < 2 ^ 64) : parseUint (formatUint n) = some n := by
  rw [← zeroPad_zero, parseUint_zeroPad h]

theorem parseUint_lt (h : parseUint text = some n) : n < 2 ^ 64 := by
  unfold parseUint at h
  split at h
  · next hc => exact Option.some.inj h ▸ hc.2.2
  · cases h

/-- A number that reads as `n` and that printing `n` gives back. -/
def parseCanonicalUint (text : List Char) : Option Nat :=
  (parseUint text).filter fun parsed => formatUint parsed = text

theorem parseCanonicalUint_eq_some : parseCanonicalUint text = some n ↔ text = formatUint n ∧ n < 2 ^ 64 := by
  unfold parseCanonicalUint
  rw [Option.filter_eq_some_iff]
  constructor
  · rintro ⟨hparse, hformat⟩
    exact ⟨(of_decide_eq_true hformat).symm, parseUint_lt hparse⟩
  · rintro ⟨rfl, hn⟩
    exact ⟨parseUint_formatUint hn, decide_eq_true rfl⟩

theorem length_formatUint_le (h : n < 2 ^ 64) : (formatUint n).length ≤ 20 :=
  (Nat.length_toDigits_le_iff (by omega) (by omega)).2 (by omega)

theorem length_zeroPad (hw : 0 < w) : (zeroPad w n).length = w ↔ n < 10 ^ w := by
  have hlen : (zeroPad w n).length = max w (formatUint n).length := List.length_leftpad
  rw [hlen, ← Nat.length_toDigits_le_iff (by omega) hw]
  unfold formatUint
  omega

/-- `strconv.FormatInt(i, 10)`. -/
def formatInt : Int → List Char
  | .ofNat n => formatUint n
  | .negSucc n => '-' :: formatUint (n + 1)

/-- The value of a text of digits. -/
def parseDigits (text : List Char) : Option Nat :=
  if text ≠ [] ∧ text.all Char.isDigit then some (Nat.ofDigitChars 10 text 0) else none

/-- `strconv.ParseInt(text, 10, bits)`. -/
def parseInt (bits : Nat) : List Char → Option Int
  | '-' :: text => (parseDigits text).bind fun n => if n ≤ 2 ^ (bits - 1) then some (-(n : Int)) else none
  | '+' :: text => (parseDigits text).bind fun n => if n < 2 ^ (bits - 1) then some (n : Int) else none
  | text => (parseDigits text).bind fun n => if n < 2 ^ (bits - 1) then some (n : Int) else none

theorem parseDigits_formatUint (n : Nat) : parseDigits (formatUint n) = some n := by
  have hdigits : (formatUint n).all Char.isDigit = true :=
    List.all_eq_true.2 fun c hc => isDigit_of_mem_formatUint hc
  unfold parseDigits
  rw [if_pos ⟨Nat.toDigits_ne_nil, hdigits⟩, formatUint, Nat.ofDigitChars_ten_toDigits]

theorem parseInt_formatInt {bits : Nat} {i : Int} (hlow : -2 ^ (bits - 1) ≤ i) (hhigh : i < 2 ^ (bits - 1)) :
    parseInt bits (formatInt i) = some i := by
  cases i with
  | ofNat n =>
    have hn : n < 2 ^ (bits - 1) := by
      have : (n : Int) < ((2 ^ (bits - 1) : Nat) : Int) := by push_cast; exact hhigh
      omega
    have hparse := parseDigits_formatUint n
    obtain ⟨c, text, hc⟩ : ∃ c text, formatUint n = c :: text := List.exists_cons_of_ne_nil Nat.toDigits_ne_nil
    have hdigit : c.isDigit = true := isDigit_of_mem_formatUint (hc ▸ List.mem_cons_self)
    show parseInt bits (formatUint n) = _
    rw [hc] at hparse ⊢
    unfold parseInt
    split
    · next heq =>
      obtain ⟨rfl, -⟩ := List.cons.inj heq
      exact absurd hdigit (by decide)
    · next heq =>
      obtain ⟨rfl, -⟩ := List.cons.inj heq
      exact absurd hdigit (by decide)
    · rw [hparse, Option.bind_some, if_pos hn]
      rfl
  | negSucc n =>
    have hn : n + 1 ≤ 2 ^ (bits - 1) := by
      have : -((2 ^ (bits - 1) : Nat) : Int) ≤ Int.negSucc n := by push_cast; exact hlow
      omega
    show parseInt bits ('-' :: formatUint (n + 1)) = _
    rw [parseInt, parseDigits_formatUint, Option.bind_some, if_pos hn]
    rfl

/-! ### What a field may hold -/

/-- A printable ASCII character other than the space. -/
def isGraphic (c : Char) : Bool := decide (33 ≤ c.toNat) && decide (c.toNat ≤ 126)

/-- A field that can be cut out of its line again. -/
def Plain (field : List Char) : Prop := ∀ c ∈ field, isGraphic c = true

theorem isGraphic_iff : isGraphic c = true ↔ 33 ≤ c.toNat ∧ c.toNat ≤ 126 := by
  unfold isGraphic
  rw [Bool.and_eq_true, decide_eq_true_eq, decide_eq_true_eq]

theorem isGraphic_of_isAlphanum (h : c.isAlphanum = true) : isGraphic c = true := by
  rw [isGraphic_iff]
  rcases Bool.or_eq_true_iff.1 h with halpha | hdigit
  · rcases Bool.or_eq_true_iff.1 halpha with hupper | hlower
    · have hrange := Text.isUpper_iff.1 hupper
      omega
    · have hrange := Text.isLower_iff.1 hlower
      omega
  · have hrange := Text.isDigit_iff.1 hdigit
    omega

theorem isAlphanum_of_isDigit (h : c.isDigit = true) : c.isAlphanum = true := by
  rw [Char.isAlphanum, h, Bool.or_true]

theorem plain_of_digits (h : ∀ c ∈ text, c.isDigit = true) : Plain text :=
  fun c hc => isGraphic_of_isAlphanum (isAlphanum_of_isDigit (h c hc))

theorem plain_formatUint (n : Nat) : Plain (formatUint n) :=
  plain_of_digits fun _ => isDigit_of_mem_formatUint

theorem plain_formatInt (i : Int) : Plain (formatInt i) := by
  cases i with
  | ofNat n => exact plain_formatUint n
  | negSucc n =>
    intro c hc
    rcases List.mem_cons.1 hc with rfl | hc
    · decide
    · exact plain_formatUint (n + 1) c hc

theorem length_formatInt_le {i : Int} (hlow : -2 ^ 63 ≤ i) (hhigh : i < 2 ^ 63) : (formatInt i).length ≤ 21 := by
  cases i with
  | ofNat n =>
    have hn : (n : Int) < 2 ^ 63 := hhigh
    exact Nat.le_trans (length_formatUint_le (by omega)) (by decide)
  | negSucc n => exact Nat.succ_le_succ (length_formatUint_le (by omega))

theorem plain_zeroPad (w n : Nat) : Plain (zeroPad w n) :=
  plain_of_digits fun _ => isDigit_of_mem_zeroPad

theorem Plain.append {a b : List Char} (ha : Plain a) (hb : Plain b) : Plain (a ++ b) := by
  intro c hc
  rcases List.mem_append.1 hc with hc | hc
  · exact ha c hc
  · exact hb c hc

theorem Plain.not_mem {field : List Char} (h : Plain field) (hc : isGraphic c = false) : c ∉ field := by
  intro hmem
  rw [h c hmem] at hc
  cases hc

theorem splitFields_plain (h : ∀ f ∈ fields, Plain f) (hne : fields ≠ []) : splitFields (spaced fields) = fields :=
  splitFields_spaced (fun f hf => (h f hf).not_mem (by decide)) hne

/-- A line of plain fields has no newline, and each of its characters is one byte. -/
theorem spaced_plain (h : ∀ f ∈ fields, Plain f) : ∀ c ∈ spaced fields, c ≠ '\n' ∧ c.toNat < 256 := by
  intro c hc
  rcases mem_spaced hc with rfl | ⟨f, hf, hcf⟩
  · decide
  · have hg := isGraphic_iff.1 (h f hf c hcf)
    refine ⟨?_, by omega⟩
    rintro rfl
    exact absurd hg.1 (by decide)

/-- A text of plain lines is read from its bytes exactly as it was written. -/
theorem segments_ofBytes_iff {bytes : List UInt8} (h : ∀ line ∈ lines, ∀ c ∈ line, c ≠ '\n' ∧ c.toNat < 256) :
    segments (ofBytes bytes) = lines ++ [[]] ↔ bytes = toBytes (unlines lines) := by
  have hbytes : ∀ c ∈ unlines lines, c.toNat < 256 := by
    intro c hc
    obtain ⟨line, hline, hc⟩ := List.mem_flatMap.1 hc
    rcases List.mem_append.1 hc with hc | hc
    · exact (h line hline c hc).2
    · rw [List.mem_singleton.1 hc]
      decide
  constructor
  · intro hsegments
    rw [← eq_unlines_of_segments hsegments, toBytes_ofBytes]
  · rintro rfl
    rw [ofBytes_toBytes hbytes]
    exact segments_unlines fun line hline hmem => (h line hline '\n' hmem).1 rfl

/-- The first field of a line, when it is known. -/
theorem splitFields_cons {first rest : List Char} (h : ' ' ∉ first) :
    splitFields (first ++ ' ' :: rest) = first :: splitFields rest := by
  unfold splitFields List.splitOn
  have hfirst : first.splitOnP (fun x => x == ' ') = [first] := by
    have hsplit : splitFields (spaced [first]) = [first] :=
      splitFields_spaced (by simpa using h) (by simp)
    rw [spaced_singleton] at hsplit
    exact hsplit
  rw [List.splitOnP_append_cons first rest (by decide), hfirst, List.singleton_append]

end RaibitServer.Lib.Lines
