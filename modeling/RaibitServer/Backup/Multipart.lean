import Mathlib.Data.List.Basic

/-!
# Backup.Multipart — the parts of an upload

`multipartWriter` of `upload.go`.  Writes of any size fill a buffer of one part; a full buffer is uploaded in the
middle of a write and used again, and the last flush uploads what is left.  The journal's fence is asked before every
part.

`Inv`: behind every write, the parts and the buffer hold exactly what was written, every part is full and the buffer
is not (`write_cases`).  From it `multipart_loses_nothing`.
-/

namespace RaibitServer.Backup

abbrev Bytes := List UInt8

/-- `PartBytes`. -/
def partBytes : Nat := 8388608

/-- `MaxStoredBytes`. -/
def maxStoredBytes : Nat := 10737418240

inductive UploadError
  | fence
  | limit
  | backend
  deriving DecidableEq, Repr

/-- What the journal and the store answer to a flush: whether the fence holds, and whether `UploadPart` succeeds,
with a proper ETag. -/
structure Response where
  fence : Bool
  stored : Bool

structure Part where
  number : Nat
  body : Bytes
  deriving DecidableEq

/-- The buffer is made for one part.  `asked` counts the flushes that have asked the journal. -/
structure MultipartWriter where
  buffer : Bytes
  parts : List Part
  asked : Nat
  bounded : buffer.length ≤ partBytes

def MultipartWriter.empty : MultipartWriter := ⟨[], [], 0, Nat.zero_le _⟩

section Writer

variable (responses : Nat → Response)

def flush (w : MultipartWriter) : Option UploadError × MultipartWriter :=
  if w.buffer = [] then (none, w)
  else
    let asked : MultipartWriter := { w with asked := w.asked + 1 }
    if (responses w.asked).fence = false then (some .fence, asked)
    else if maxStoredBytes / partBytes + 1 ≤ w.parts.length then (some .limit, asked)
    else if (responses w.asked).stored = false then (some .backend, asked)
    else
      (none, ⟨[], w.parts ++ [⟨w.parts.length + 1, w.buffer⟩], w.asked + 1, Nat.zero_le _⟩)

/-- `append(w.buffer, p[:n]...)` with the `n` of `Write`. -/
def fill (w : MultipartWriter) (p : Bytes) : MultipartWriter :=
  { w with
    buffer := w.buffer ++ p.take (partBytes - w.buffer.length)
    bounded := by
      have := w.bounded
      rw [List.length_append, List.length_take]
      omega }

theorem flush_buffer_lt {w w' : MultipartWriter} (hw : w.buffer ≠ []) (h : flush responses w = (none, w')) :
    w'.buffer.length < w.buffer.length := by
  unfold flush at h
  rw [if_neg hw] at h
  dsimp only at h
  split at h
  · cases h
  split at h
  · cases h
  split at h
  · cases h
  obtain rfl := (Prod.mk.inj h).2
  exact List.length_pos_iff.2 hw

/-- `Write`: the bytes taken, the error and the writer behind it. -/
def write (w : MultipartWriter) (p : Bytes) : Nat × Option UploadError × MultipartWriter :=
  if _hp : p = [] then (0, none, w)
  else
    let n := min p.length (partBytes - w.buffer.length)
    if _hfull : (fill w p).buffer.length = partBytes then
      match _hflush : flush responses (fill w p) with
      | (some e, w') => (n, some e, w')
      | (none, w') =>
        let rest := write w' (p.drop (partBytes - w.buffer.length))
        (n + rest.1, rest.2)
    else
      let rest := write (fill w p) (p.drop (partBytes - w.buffer.length))
      (n + rest.1, rest.2)
  termination_by (p.length, w.buffer.length)
  decreasing_by
    · have hlength := List.length_pos_iff.2 _hp
      have hroom := w.bounded
      rw [Prod.lex_def, List.length_drop]
      by_cases hspace : w.buffer.length = partBytes
      · -- a buffer that an earlier flush left full: nothing is taken, and the flush has emptied it
        have hsame : (fill w p).buffer = w.buffer := by simp [fill, hspace]
        have hfilled : (fill w p).buffer ≠ [] := by
          rw [hsame]
          exact List.ne_nil_of_length_pos (by rw [hspace]; decide)
        have := flush_buffer_lt responses hfilled _hflush
        rw [hsame] at this
        exact .inr ⟨by omega, this⟩
      · exact .inl (by omega)
    · have hlength := List.length_pos_iff.2 _hp
      have hroom := w.bounded
      rw [Prod.lex_def, List.length_drop]
      have hspace : w.buffer.length ≠ partBytes := fun hspace => _hfull (by simp [fill, hspace])
      exact .inl (by omega)

/-- Slices written one after the other, up to the first error, and the final flush. -/
def writeAll (w : MultipartWriter) : List Bytes → Option UploadError × MultipartWriter
  | [] => flush responses w
  | p :: slices =>
    match write responses w p with
    | (_, some e, w') => (some e, w')
    | (_, none, w') => writeAll w' slices

end Writer

/-! ### The invariant -/

/-- Parts and buffer hold what was written, and all parts are full. -/
structure Inv (taken : Bytes) (w : MultipartWriter) : Prop where
  content : w.parts.flatMap Part.body ++ w.buffer = taken
  full : ∀ part ∈ w.parts, part.body.length = partBytes
  numbers : w.parts.map Part.number = List.range' 1 w.parts.length

theorem Inv.empty : Inv [] .empty := ⟨rfl, by simp [MultipartWriter.empty], rfl⟩

theorem length_flatMap_full {parts : List Part} (h : ∀ part ∈ parts, part.body.length = partBytes) :
    (parts.flatMap Part.body).length = parts.length * partBytes := by
  induction parts with
  | nil => simp
  | cons part parts ih =>
    rw [List.flatMap_cons, List.length_append, h part List.mem_cons_self,
      ih fun q hq => h q (List.mem_cons_of_mem _ hq), List.length_cons, Nat.succ_mul, Nat.add_comm]

theorem Inv.length {taken : Bytes} {w : MultipartWriter} (h : Inv taken w) :
    taken.length = w.parts.length * partBytes + w.buffer.length := by
  rw [← h.content, List.length_append, length_flatMap_full h.full]

theorem numbers_concat {parts : List Part} (h : parts.map Part.number = List.range' 1 parts.length) (body : Bytes) :
    (parts ++ [(⟨parts.length + 1, body⟩ : Part)]).map Part.number =
      List.range' 1 (parts ++ [(⟨parts.length + 1, body⟩ : Part)]).length := by
  rw [List.map_append, h, List.length_append, List.length_singleton, List.range'_concat]
  simp [Nat.add_comm]

section Steps

variable {responses : Nat → Response} {w : MultipartWriter} {taken : Bytes}

/-- Within the limit, a flush of a buffer that is not empty uploads it, or the fence was lost. -/
theorem flush_cases (hstored : ∀ i, (responses i).stored = true) (h : Inv taken w) (hw : w.buffer ≠ [])
    (htotal : taken.length ≤ maxStoredBytes) :
    flush responses w = (none, ⟨[], w.parts ++ [⟨w.parts.length + 1, w.buffer⟩], w.asked + 1, Nat.zero_le _⟩) ∨
      (flush responses w).1 = some .fence ∧ (responses w.asked).fence = false := by
  unfold flush
  rw [if_neg hw]
  dsimp only
  by_cases hfence : (responses w.asked).fence = false
  · rw [if_pos hfence]
    exact .inr ⟨rfl, hfence⟩
  · have hlimit : ¬ maxStoredBytes / partBytes + 1 ≤ w.parts.length := by
      have hlength := h.length
      have hbuffer := List.length_pos_iff.2 hw
      have hparts : w.parts.length ≤ maxStoredBytes / partBytes :=
        (Nat.le_div_iff_mul_le (by decide)).2 (by omega)
      omega
    rw [if_neg hfence, if_neg hlimit, if_neg (by simp [hstored])]
    exact .inl rfl

theorem Inv.flushed (h : Inv taken w) (hw : w.buffer.length = partBytes) :
    Inv taken ⟨[], w.parts ++ [⟨w.parts.length + 1, w.buffer⟩], w.asked + 1, Nat.zero_le _⟩ where
  content := by simpa using h.content
  full := by
    intro part hpart
    rcases List.mem_append.1 hpart with hpart | hpart
    · exact h.full part hpart
    · rw [List.mem_singleton.1 hpart]
      exact hw
  numbers := numbers_concat h.numbers w.buffer

theorem Inv.filled (h : Inv taken w) (p : Bytes) :
    Inv (taken ++ p.take (partBytes - w.buffer.length)) (fill w p) where
  content := by
    rw [← h.content, List.append_assoc]
    rfl
  full := h.full
  numbers := h.numbers

/-- **A write** takes all of its bytes, or the fence was lost. -/
theorem write_cases (hstored : ∀ i, (responses i).stored = true) (h : Inv taken w)
    (hroom : w.buffer.length < partBytes) {p : Bytes} (htotal : (taken ++ p).length ≤ maxStoredBytes) :
    (∃ w', write responses w p = (p.length, none, w') ∧ Inv (taken ++ p) w' ∧ w'.buffer.length < partBytes) ∨
      (write responses w p).2.1 = some .fence ∧ ∃ i, (responses i).fence = false := by
  -- each turn of the loop takes some of `p`, since the buffer has room
  induction hn : p.length using Nat.strongRecOn generalizing w taken p with
  | ind n ih =>
    subst hn
    unfold write
    by_cases hp : p = []
    · rw [dif_pos hp]
      subst hp
      exact .inl ⟨w, rfl, by simpa using h, hroom⟩
    rw [dif_neg hp]
    have hlength := List.length_pos_iff.2 hp
    have hfilled := h.filled p
    have hsplit : taken ++ p =
        (taken ++ p.take (partBytes - w.buffer.length)) ++ p.drop (partBytes - w.buffer.length) := by
      rw [List.append_assoc, List.take_append_drop]
    have hfront : (taken ++ p.take (partBytes - w.buffer.length)).length ≤ maxStoredBytes := by
      rw [hsplit, List.length_append] at htotal
      omega
    have hshorter : (p.drop (partBytes - w.buffer.length)).length < p.length := by
      rw [List.length_drop]
      omega
    have hcount : min p.length (partBytes - w.buffer.length) + (p.drop (partBytes - w.buffer.length)).length =
        p.length := by
      rw [List.length_drop]
      omega
    rw [hsplit] at htotal
    dsimp only
    by_cases hfull : (fill w p).buffer.length = partBytes
    · rw [dif_pos hfull]
      have hsome : (fill w p).buffer ≠ [] := List.ne_nil_of_length_pos (by rw [hfull]; decide)
      rcases flush_cases hstored hfilled hsome hfront with hflush | ⟨hflush, hfence⟩
      · split
        · next e w' heq => rw [hflush] at heq; cases heq
        · next w' heq =>
          rw [hflush] at heq
          obtain rfl := (Prod.mk.inj heq).2
          have hempty : 0 < partBytes := by decide
          rcases ih _ hshorter (hfilled.flushed hfull) hempty htotal rfl with
            ⟨w', hw', hinv, hroom'⟩ | ⟨herror, hlost⟩
          · rw [← hsplit] at hinv
            exact .inl ⟨w', by rw [hw', hcount], hinv, hroom'⟩
          · exact .inr ⟨herror, hlost⟩
      · split
        · next e w' heq => exact .inr ⟨by rw [heq] at hflush; exact hflush, _, hfence⟩
        · next w' heq => rw [heq] at hflush; cases hflush
    · rw [dif_neg hfull]
      have hroom' : (fill w p).buffer.length < partBytes := Nat.lt_of_le_of_ne (fill w p).bounded hfull
      rcases ih _ hshorter hfilled hroom' htotal rfl with ⟨w', hw', hinv, hroom''⟩ | ⟨herror, hlost⟩
      · rw [← hsplit] at hinv
        exact .inl ⟨w', by rw [hw', hcount], hinv, hroom''⟩
      · exact .inr ⟨herror, hlost⟩

end Steps

/-! ### Uploads -/

/-- The parts of an upload of some slices. -/
structure Complete (slices : List Bytes) (parts : List Part) : Prop where
  numbers : parts.map Part.number = List.range' 1 parts.length
  full : ∀ part ∈ parts.dropLast, part.body.length = partBytes
  last : ∀ part ∈ parts.getLast?, 1 ≤ part.body.length ∧ part.body.length ≤ partBytes
  content : parts.flatMap Part.body = slices.flatten

/-- No part is missing and none is too many. -/
theorem Complete.count {slices : List Bytes} {parts : List Part} (h : Complete slices parts) :
    slices.flatten.length ≤ parts.length * partBytes ∧
      parts.length * partBytes < slices.flatten.length + partBytes := by
  rw [← h.content]
  rcases List.eq_nil_or_concat' parts with rfl | ⟨front, last, rfl⟩
  · exact ⟨Nat.zero_le _, by decide⟩
  · have hfront := h.full
    rw [List.dropLast_concat] at hfront
    obtain ⟨hleast, hmost⟩ := h.last last (by simp)
    simp only [List.flatMap_append, List.flatMap_singleton, List.length_append, length_flatMap_full hfront,
      List.length_singleton, Nat.succ_mul]
    omega

/-- The final flush. -/
theorem flush_complete {responses : Nat → Response} {w : MultipartWriter} {slices : List Bytes}
    (hstored : ∀ i, (responses i).stored = true) (h : Inv slices.flatten w)
    (htotal : slices.flatten.length ≤ maxStoredBytes) :
    ((flush responses w).1 = none ∧ Complete slices (flush responses w).2.parts) ∨
      (flush responses w).1 = some .fence ∧ ∃ i, (responses i).fence = false := by
  by_cases hw : w.buffer = []
  · have hcontent := h.content
    rw [hw, List.append_nil] at hcontent
    unfold flush
    rw [if_pos hw]
    refine .inl ⟨rfl, h.numbers, fun part hpart => h.full part (List.dropLast_subset _ hpart), fun part hpart => ?_,
      hcontent⟩
    rw [h.full part (List.mem_of_getLast? hpart)]
    exact ⟨by decide, Nat.le_refl _⟩
  · rcases flush_cases hstored h hw htotal with hflush | ⟨hflush, hfence⟩
    · rw [hflush]
      refine .inl ⟨rfl, numbers_concat h.numbers w.buffer, ?_, ?_, by simpa using h.content⟩
      · rw [List.dropLast_concat]
        exact h.full
      · intro part hpart
        rw [List.getLast?_concat] at hpart
        obtain rfl := Option.some.inj hpart
        exact ⟨List.length_pos_iff.2 hw, w.bounded⟩
    · exact .inr ⟨hflush, _, hfence⟩

theorem writeAll_cases {responses : Nat → Response} (hstored : ∀ i, (responses i).stored = true)
    {before slices : List Bytes} {w : MultipartWriter} (h : Inv before.flatten w) (hroom : w.buffer.length < partBytes)
    (htotal : (before ++ slices).flatten.length ≤ maxStoredBytes) :
    ((writeAll responses w slices).1 = none ∧ Complete (before ++ slices) (writeAll responses w slices).2.parts) ∨
      (writeAll responses w slices).1 = some .fence ∧ ∃ i, (responses i).fence = false := by
  induction slices generalizing before w with
  | nil =>
    rw [List.append_nil] at htotal ⊢
    exact flush_complete hstored h htotal
  | cons p slices ih =>
    have hsplit : before ++ p :: slices = (before ++ [p]) ++ slices := by simp
    have hflat : (before ++ [p]).flatten = before.flatten ++ p := by simp
    rw [hsplit] at htotal ⊢
    have hfront : (before.flatten ++ p).length ≤ maxStoredBytes := by
      rw [List.flatten_append, hflat, List.length_append] at htotal
      omega
    unfold writeAll
    rcases write_cases hstored h hroom hfront with ⟨w', hw', hinv, hroom'⟩ | ⟨herror, hlost⟩
    · rw [hw']
      rw [← hflat] at hinv
      exact ih hinv hroom' htotal
    · split
      · next n e w' heq => exact .inr ⟨by rw [heq] at herror; exact herror, hlost⟩
      · next n w' heq => rw [heq] at herror; cases herror

/-- **Multipart chunking loses nothing**: writes of any sizes and the final flush upload parts numbered from 1 that
are full but the last and hold what was written, unless the journal's fence was lost; the limit is never met. -/
theorem multipart_loses_nothing (responses : Nat → Response) (slices : List Bytes)
    (hstored : ∀ i, (responses i).stored = true) (htotal : slices.flatten.length ≤ maxStoredBytes) :
    ((writeAll responses .empty slices).1 = none ∧ Complete slices (writeAll responses .empty slices).2.parts) ∨
      (writeAll responses .empty slices).1 = some .fence ∧ ∃ i, (responses i).fence = false :=
  @writeAll_cases responses hstored [] slices .empty Inv.empty (by decide) htotal

/-- Two slices of a byte more than a part, with every fence and every part passing. -/
theorem multipart_loses_nothing_two :
    let slices : List Bytes := [List.replicate partBytes 1, [2]]
    let upload := writeAll (fun _ => ⟨true, true⟩) .empty slices
    upload.1 = none ∧ Complete slices upload.2.parts ∧ upload.2.parts.map Part.number = [1, 2] := by
  intro slices upload
  have hbytes : slices.flatten.length = partBytes + 1 := by simp [slices]
  have htotal : slices.flatten.length ≤ maxStoredBytes := hbytes ▸ (by decide)
  rcases multipart_loses_nothing (fun _ => ⟨true, true⟩) slices (fun _ => rfl) htotal with ⟨hdone, hparts⟩ | ⟨-, i, hi⟩
  · have hlength : upload.2.parts.length = 2 := by
      obtain ⟨hleast, hmost⟩ : _ ≤ upload.2.parts.length * partBytes ∧ upload.2.parts.length * partBytes < _ :=
        hparts.count
      rw [hbytes] at hleast hmost
      unfold partBytes at hleast hmost
      omega
    exact ⟨hdone, hparts, by rw [hparts.numbers, hlength]; rfl⟩
  · cases hi

end RaibitServer.Backup
