import RaibitServer.RecoveryWire.Parsing

/-!
# RecoveryWire.Canonical — the decoder accepts what a full-chunk encoder writes, and nothing else

An envelope is fixed by its metadata and the pieces the payload was read in: `envelope`.  The encoder
writes it for any pieces that fit; the decoder accepts it exactly when every piece but the last is
full.  Cutting the payload into full chunks is the only way to such pieces, so payload and metadata
have one envelope.
-/

namespace RaibitServer.RecoveryWire

open Lib Lib.Lines

/-! ### Pieces -/

/-- What one `Read` of a reader with more to give delivers. -/
structure Piece where
  bytes : List UInt8
  nonempty : bytes ≠ []
  le : bytes.length ≤ payloadChunkSize

def payloadOf (pieces : List Piece) : List UInt8 := pieces.flatMap Piece.bytes

/-- A reader that delivers `pieces`; `eofWithLast` tells whether `io.EOF` comes with the last piece or
in a read of its own. -/
def deliver (eofWithLast : Bool) : List Piece → List Read
  | [] => [⟨[], some .EOF, Nat.zero_le _⟩]
  | [piece] =>
    if eofWithLast then [⟨piece.bytes, some .EOF, piece.le⟩]
    else [⟨piece.bytes, none, piece.le⟩, ⟨[], some .EOF, Nat.zero_le _⟩]
  | piece :: pieces => ⟨piece.bytes, none, piece.le⟩ :: deliver eofWithLast pieces

/-- The pieces of a reader that fills its buffer as long as the payload lasts. -/
def chunks (payload : List UInt8) : List Piece :=
  if h : payload = [] then []
  else
    ⟨payload.take payloadChunkSize, by
        rw [ne_eq, List.take_eq_nil_iff]
        exact fun e => e.elim (by decide) h,
      by rw [List.length_take]; exact Nat.min_le_left _ _⟩ ::
      chunks (payload.drop payloadChunkSize)
termination_by payload.length
decreasing_by
  have hpos : 0 < payload.length := List.length_pos_iff.2 h
  rw [List.length_drop]
  unfold payloadChunkSize
  omega

/-- The payload is within the limits. -/
structure Fits (limits : Limits) (payload : List UInt8) : Prop where
  bytes : payload.length ≤ limits.maxBytes.toNat
  frames : (payload.length + (payloadChunkSize - 1)) / payloadChunkSize ≤ limits.maxFrames.toNat

/-- The pieces that may follow a frame of `size` bytes: only a full one is followed. -/
def Follows : Nat → List Piece → Prop
  | _, [] => True
  | size, piece :: pieces => size = payloadChunkSize ∧ Follows piece.bytes.length pieces

theorem payloadOf_cons (piece : Piece) (pieces : List Piece) :
    payloadOf (piece :: pieces) = piece.bytes ++ payloadOf pieces := rfl

theorem chunks_nil : chunks [] = [] := by rw [chunks, dif_pos rfl]

section Canonical

variable {piece : Piece} {pieces : List Piece} {limits : Limits} {s : Progress} {m : Metadata} {r : Receipt}
  {wire p : List UInt8}

/-- The first chunk is the first piece, when only a full piece is followed. -/
theorem chunks_append {rest : List UInt8} (h : rest ≠ [] → piece.bytes.length = payloadChunkSize) :
    chunks (piece.bytes ++ rest) = piece :: chunks rest := by
  have hne : piece.bytes ++ rest ≠ [] := fun e => piece.nonempty (List.append_eq_nil_iff.1 e).1
  have hcut : (piece.bytes ++ rest).take payloadChunkSize = piece.bytes ∧
      (piece.bytes ++ rest).drop payloadChunkSize = rest := by
    by_cases hrest : rest = []
    · subst hrest
      rw [List.append_nil]
      exact ⟨List.take_of_length_le piece.le, List.drop_of_length_le piece.le⟩
    · rw [← h hrest]
      exact ⟨List.take_left, List.drop_left⟩
  rw [chunks, dif_neg hne]
  congr 1
  · cases piece
    simp only [Piece.mk.injEq]
    exact hcut.1
  · rw [hcut.2]

theorem follows_chunks {size : Nat} (h : Follows size pieces) : chunks (payloadOf pieces) = pieces := by
  induction pieces generalizing size with
  | nil => exact chunks_nil
  | cons piece pieces ih =>
    obtain ⟨-, hnext⟩ := h
    rw [payloadOf_cons, chunks_append, ih hnext]
    -- a piece with bytes behind it was followed by another, so it was full
    intro hrest
    cases pieces with
    | nil => exact absurd rfl hrest
    | cons next pieces => exact hnext.1

theorem chunks_follows (payload : List UInt8) : Follows payloadChunkSize (chunks payload) := by
  induction payload using chunks.induct with
  | case1 => rw [chunks_nil]; trivial
  | case2 payload h ih =>
    rw [chunks, dif_neg h]
    refine ⟨rfl, ?_⟩
    by_cases hdrop : payload.drop payloadChunkSize = []
    · rw [hdrop, chunks_nil]
      trivial
    · have hlen : payloadChunkSize < payload.length := by
        by_contra hle
        exact hdrop (List.drop_of_length_le (by omega))
      rw [List.length_take, Nat.min_eq_left hlen.le]
      exact ih

theorem payloadOf_chunks (payload : List UInt8) : payloadOf (chunks payload) = payload := by
  induction payload using chunks.induct with
  | case1 => rw [chunks_nil]; rfl
  | case2 payload h ih =>
    rw [chunks, dif_neg h, payloadOf_cons, ih, List.take_append_drop]

theorem length_chunks (payload : List UInt8) :
    (chunks payload).length = (payload.length + (payloadChunkSize - 1)) / payloadChunkSize := by
  induction payload using chunks.induct with
  | case1 => rw [chunks_nil]; rfl
  | case2 payload h ih =>
    have hpos : 0 < payload.length := List.length_pos_iff.2 h
    rw [chunks, dif_neg h, List.length_cons, ih, List.length_drop]
    unfold payloadChunkSize
    omega

/-! ### Counting -/

/-- The counts after `pieces`. -/
def Progress.after (s : Progress) (pieces : List Piece) : Progress :=
  ⟨s.frames + pieces.length, s.plaintextBytes + (payloadOf pieces).length, s.plaintext ++ payloadOf pieces⟩

/-- `pieces` fit what the limits leave. -/
structure Room (limits : Limits) (s : Progress) (pieces : List Piece) : Prop where
  frames : s.frames + pieces.length ≤ limits.maxFrames.toNat
  bytes : s.plaintextBytes + (payloadOf pieces).length ≤ limits.maxBytes.toNat

theorem Progress.after_nil (s : Progress) : s.after [] = s := by
  unfold Progress.after payloadOf
  simp

theorem Progress.after_cons (s : Progress) (piece : Piece) (pieces : List Piece) :
    s.after (piece :: pieces) = (s.push piece.bytes).after pieces := by
  unfold Progress.after Progress.push
  simp only [payloadOf_cons, List.length_cons, List.length_append, List.append_assoc, Progress.mk.injEq,
    and_true]
  omega

theorem room_cons : Room limits s (piece :: pieces) ↔ Room limits (s.push piece.bytes) pieces := by
  have hbytes : (payloadOf (piece :: pieces)).length = piece.bytes.length + (payloadOf pieces).length := by
    rw [payloadOf_cons, List.length_append]
  constructor
  · rintro ⟨hframes, hroom⟩
    rw [hbytes] at hroom
    rw [List.length_cons] at hframes
    exact ⟨by simp only [Progress.push]; omega, by simp only [Progress.push]; omega⟩
  · rintro ⟨hframes, hroom⟩
    simp only [Progress.push] at hframes hroom
    exact ⟨by rw [List.length_cons]; omega, by rw [hbytes]; omega⟩

theorem Room.nil (h : Room limits s pieces) : Room limits s [] := by
  obtain ⟨hframes, hbytes⟩ := h
  exact ⟨by rw [List.length_nil]; omega, by simp only [payloadOf, List.flatMap_nil, List.length_nil]; omega⟩

theorem room_start_chunks {payload : List UInt8} : Room limits .start (chunks payload) ↔ Fits limits payload := by
  have hframes := length_chunks payload
  have hbytes := congrArg List.length (payloadOf_chunks payload)
  constructor
  · rintro ⟨hf, hb⟩
    simp only [Progress.start, Nat.zero_add] at hf hb
    exact ⟨by omega, by omega⟩
  · rintro ⟨hb, hf⟩
    exact ⟨by simp only [Progress.start]; omega, by simp only [Progress.start]; omega⟩

/-! ### The envelope -/

def frameLines (n : Nat) : List Piece → List (List Char)
  | [] => []
  | piece :: pieces => dataLine n piece.bytes :: frameLines (n + 1) pieces

/-- The lines after the header, from the counts `s` on. -/
def body (sha256 : List UInt8 → Digest) (s : Progress) (pieces : List Piece) : List (List Char) :=
  frameLines s.frames pieces ++ [terminalLine ((s.after pieces).receipt sha256)]

def envelope (sha256 : List UInt8 → Digest) (m : Metadata) (pieces : List Piece) : List (List Char) :=
  headerLine m :: body sha256 .start pieces

theorem body_nil (sha256 : List UInt8 → Digest) (s : Progress) :
    body sha256 s [] = [terminalLine (s.receipt sha256)] := by
  unfold body frameLines
  rw [Progress.after_nil, List.nil_append]

theorem body_cons (sha256 : List UInt8 → Digest) (s : Progress) (piece : Piece) (pieces : List Piece) :
    body sha256 s (piece :: pieces) =
      dataLine s.frames piece.bytes :: body sha256 (s.push piece.bytes) pieces := by
  unfold body
  rw [frameLines, Progress.after_cons, List.cons_append]
  rfl

theorem plain_body (sha256 : List UInt8 → Digest) (s : Progress) (pieces : List Piece) :
    ∀ line ∈ body sha256 s pieces, ∀ c ∈ line, c ≠ '\n' ∧ c.toNat < 256 := by
  induction pieces generalizing s with
  | nil =>
    rw [body_nil]
    exact List.forall_mem_singleton.2 (spaced_plain (plain_terminalLine _))
  | cons piece pieces ih =>
    rw [body_cons]
    exact List.forall_mem_cons.2 ⟨spaced_plain (plain_dataLine _ _), ih _⟩

theorem plain_envelope (sha256 : List UInt8 → Digest) (h : m.valid = true) (pieces : List Piece) :
    ∀ line ∈ envelope sha256 m pieces, ∀ c ∈ line, c ≠ '\n' ∧ c.toNat < 256 :=
  List.forall_mem_cons.2 ⟨spaced_plain (plain_header h), plain_body sha256 _ pieces⟩

/-! ### The encoder -/

theorem writeFrame_piece {result : List (List Char) × Progress} :
    writeFrame limits s piece.bytes = .ok result ↔
      Room limits s [piece] ∧ result = ([dataLine s.frames piece.bytes], s.push piece.bytes) := by
  have hroom : Room limits s [piece] ↔ ¬ (s.frames ≥ limits.maxFrames.toNat ∨
      s.plaintextBytes > limits.maxBytes.toNat ∨
      piece.bytes.length > limits.maxBytes.toNat - s.plaintextBytes) := by
    have hone : (payloadOf [piece]).length = piece.bytes.length := by
      rw [payloadOf_cons, List.length_append]
      rfl
    have hpos : 0 < piece.bytes.length := List.length_pos_iff.2 piece.nonempty
    constructor
    · rintro ⟨hframes, hbytes⟩
      rw [hone] at hbytes
      rw [List.length_singleton] at hframes
      omega
    · intro h
      exact ⟨by rw [List.length_singleton]; omega, by rw [hone]; omega⟩
  unfold writeFrame
  rw [if_neg piece.nonempty, hroom]
  split
  · next h => exact ⟨fun e => (nomatch e), fun e => absurd h e.1⟩
  · next h => exact ⟨fun e => ⟨h, (Except.ok.inj e).symm⟩, fun e => by rw [e.2]⟩

/-- One turn of the loop, whichever way the end of the payload is told. -/
theorem encodeFrames_deliver_cons (limits : Limits) (eofWithLast : Bool) (piece : Piece)
    (pieces : List Piece) (s : Progress) :
    encodeFrames limits (deliver eofWithLast (piece :: pieces)) s =
      match writeFrame limits s piece.bytes with
      | .error e => ([], .error e)
      | .ok (written, s) =>
        (written ++ (encodeFrames limits (deliver eofWithLast pieces) s).1,
          (encodeFrames limits (deliver eofWithLast pieces) s).2) := by
  have hne := piece.nonempty
  have hend : ∀ s, encodeFrames limits (deliver eofWithLast []) s = ([], .ok s) := fun s => rfl
  cases pieces with
  | nil =>
    cases eofWithLast with
    | false => cases hwrite : writeFrame limits s piece.bytes <;> simp [deliver, encodeFrames, hne, hwrite]
    | true =>
      have hone : deliver true [piece] = [⟨piece.bytes, some .EOF, piece.le⟩] := rfl
      rw [hone, encodeFrames]
      cases hwrite : writeFrame limits s piece.bytes with
      | error e => rfl
      | ok result => simp only [hend, List.append_nil]
  | cons next pieces =>
    cases hwrite : writeFrame limits s piece.bytes <;> simp [deliver, encodeFrames, hne, hwrite]

theorem encodeFrames_deliver {eofWithLast : Bool} {s' : Progress} {lines : List (List Char)} (h : Room limits s []) :
    encodeFrames limits (deliver eofWithLast pieces) s = (lines, .ok s') ↔
      Room limits s pieces ∧ lines = frameLines s.frames pieces ∧ s' = s.after pieces := by
  induction pieces generalizing s lines with
  | nil =>
    have hnil : encodeFrames limits (deliver eofWithLast []) s = ([], .ok s) := rfl
    rw [hnil, Progress.after_nil, Prod.mk.injEq, Except.ok.injEq]
    exact ⟨fun e => ⟨h, e.1.symm, e.2.symm⟩, fun e => ⟨e.2.1.symm, e.2.2.symm⟩⟩
  | cons piece pieces ih =>
    rw [encodeFrames_deliver_cons]
    constructor
    · intro hrun
      split at hrun
      · cases (Prod.mk.inj hrun).2
      · next written next hwrite =>
        obtain ⟨hroom, hnext⟩ := writeFrame_piece.1 hwrite
        obtain ⟨rfl, rfl⟩ := Prod.mk.inj hnext
        obtain ⟨rfl, hok⟩ := Prod.mk.inj hrun
        have hrest : encodeFrames limits (deliver eofWithLast pieces) (s.push piece.bytes) =
            ((encodeFrames limits (deliver eofWithLast pieces) (s.push piece.bytes)).1, .ok s') :=
          Prod.ext rfl hok
        obtain ⟨hroom, hlines, rfl⟩ := (ih (room_cons.1 hroom)).1 hrest
        refine ⟨room_cons.2 hroom, ?_, (Progress.after_cons s piece pieces).symm⟩
        rw [hlines]
        rfl
    · rintro ⟨hroom, rfl, rfl⟩
      have hroom' := room_cons.1 hroom
      have hwrite : writeFrame limits s piece.bytes =
          .ok ([dataLine s.frames piece.bytes], s.push piece.bytes) :=
        writeFrame_piece.2 ⟨room_cons.2 hroom'.nil, rfl⟩
      have hrest := (ih hroom'.nil).2 ⟨hroom', rfl, Progress.after_cons s piece pieces⟩
      rw [hwrite]
      dsimp only
      rw [hrest]
      rfl

/-- **The encoder** writes the envelope of the pieces it was given, if they fit. -/
theorem encode_ok (sha256 : List UInt8 → Digest) (hlimits : limits.Sound) {eofWithLast : Bool} :
    encode sha256 limits m (deliver eofWithLast pieces) = (wire, .ok r) ↔
      m.valid = true ∧ Room limits .start pieces ∧ wire = toBytes (unlines (envelope sha256 m pieces)) ∧
        r = (Progress.start.after pieces).receipt sha256 := by
  have hstart : Room limits .start [] := ⟨Nat.zero_le _, Nat.zero_le _⟩
  have hnonzero : ¬ (limits.maxBytes = 0 ∨ limits.maxFrames = 0) :=
    fun h => h.elim hlimits.bytes hlimits.frames
  unfold encode
  rw [if_neg hnonzero]
  by_cases hvalid : m.valid = true
  · rw [if_neg (not_not.2 hvalid)]
    dsimp only
    constructor
    · intro h
      split at h
      · cases (Prod.mk.inj h).2
      · next s hs =>
        have hrun : encodeFrames limits (deliver eofWithLast pieces) .start =
            ((encodeFrames limits (deliver eofWithLast pieces) .start).1, .ok s) := Prod.ext rfl hs
        obtain ⟨hroom, hlines, rfl⟩ := (encodeFrames_deliver hstart).1 hrun
        obtain ⟨rfl, hr⟩ := Prod.mk.inj h
        refine ⟨hvalid, hroom, ?_, (Except.ok.inj hr).symm⟩
        rw [hlines]
        rfl
    · rintro ⟨-, hroom, rfl, rfl⟩
      rw [(encodeFrames_deliver hstart).2 ⟨hroom, rfl, rfl⟩]
      rfl
  · rw [if_pos hvalid]
    exact ⟨fun h => (nomatch (Prod.mk.inj h).2), fun h => absurd h.1 hvalid⟩

/-! ### Lines fit the buffer of the decoder -/

theorem length_spaced_cons (f g : List Char) (fields : List (List Char)) :
    (spaced (f :: g :: fields)).length = f.length + 1 + (spaced (g :: fields)).length := by
  rw [spaced_cons, List.length_append, List.length_cons]
  omega

theorem length_dataLine {n : Nat} (hn : n < 10 ^ 10) (piece : Piece) :
    (dataLine n piece.bytes).length < maxLineLength := by
  have hnumber : (zeroPad 10 n).length = 10 := (length_zeroPad (by omega)).2 hn
  have hencoded := length_encode_le.2 piece.le
  unfold dataLine
  rw [length_spaced_cons, length_spaced_cons, spaced_singleton, hnumber, List.length_singleton]
  unfold encodedLen payloadChunkSize at hencoded
  unfold maxLineLength
  omega

theorem length_terminalLine (hframes : r.frames < 2 ^ 64) (hbytes : r.plaintextBytes < 2 ^ 64) :
    (terminalLine r).length < maxLineLength := by
  have hf := length_formatUint_le hframes
  have hb := length_formatUint_le hbytes
  unfold terminalLine
  rw [length_spaced_cons, length_spaced_cons, length_spaced_cons, spaced_singleton, Hex.length_encode,
    r.sha256.length, List.length_singleton]
  unfold maxLineLength
  omega

theorem length_headerLine (h : m.valid = true) : (headerLine m).length < maxLineLength := by
  obtain ⟨⟨hversion, hsupports⟩, -⟩ := Metadata.valid_iff.1 h
  obtain ⟨hengine, hformat⟩ := supports_all hsupports
  have he := (plain_engine hengine).2
  have hv := (plain_version hversion).2
  have hf := (plain_format hformat).2
  have hbaseline : (spaced (baselineFields m.baseline)).length ≤ 200 := by
    cases m.baseline with
    | none => decide
    | some b =>
      have hrecords := length_formatUint_le b.recordCount.toNat_lt
      simp only [baselineFields, length_spaced_cons, spaced_singleton, List.length_append, Hex.length_encode,
        b.schemaSHA256.length, b.dataSHA256.length]
      have h₁ : "schema-sha256=".toList.length = 14 := by decide
      have h₂ : "data-sha256=".toList.length = 12 := by decide
      have h₃ : "records=".toList.length = 8 := by decide
      omega
  obtain ⟨field, fields, hfields⟩ := List.exists_cons_of_ne_nil (baselineFields_ne_nil m.baseline)
  have hmagic : magic.length = 17 := by decide
  unfold headerLine maxLineLength
  rw [hfields] at hbaseline ⊢
  rw [length_spaced_cons, length_spaced_cons, length_spaced_cons, length_spaced_cons]
  omega

/-! ### The decoder -/

theorem dataLine_letter (n : Nat) (data : List UInt8) : "D ".toList.isPrefixOf (dataLine n data) = true := by
  unfold dataLine
  rw [spaced_cons]
  rfl

theorem terminalLine_letter (r : Receipt) :
    "D ".toList.isPrefixOf (terminalLine r) = false ∧ "E ".toList.isPrefixOf (terminalLine r) = true := by
  unfold terminalLine
  rw [spaced_cons]
  exact ⟨rfl, rfl⟩

theorem Room.lt (h : Room limits s []) : s.frames < 2 ^ 64 ∧ s.plaintextBytes < 2 ^ 64 := by
  have hframes := limits.maxFrames.toNat_lt
  have hbytes := limits.maxBytes.toNat_lt
  have hf := h.frames
  have hb := h.bytes
  simp only [payloadOf, List.flatMap_nil, List.length_nil, Nat.add_zero] at hf hb
  exact ⟨by omega, by omega⟩

theorem admits_iff {s : DecodeState} :
    Admits limits s piece.bytes ↔ s.previousSize = payloadChunkSize ∧ Room limits s.progress [piece] := by
  have hone : (payloadOf [piece]).length = piece.bytes.length := by
    rw [payloadOf_cons, List.length_append]
    rfl
  have hpos : 0 < piece.bytes.length := List.length_pos_iff.2 piece.nonempty
  constructor
  · rintro ⟨hfull, -, -, hframes, hbytes⟩
    exact ⟨hfull, by rw [List.length_singleton]; omega, by rw [hone]; omega⟩
  · rintro ⟨hfull, hframes, hbytes⟩
    rw [hone] at hbytes
    rw [List.length_singleton] at hframes
    exact ⟨hfull, piece.nonempty, piece.le, by omega, by omega⟩

theorem finish_ok {sha256 : List UInt8 → Digest} {s : DecodeState} {line : List Char} {rest : List (List Char)}
    {d : Decoded} (h : Room limits s.progress []) (hE : "E ".toList.isPrefixOf line = true) :
    finish sha256 m s line rest = .ok d ↔
      line = terminalLine (s.progress.receipt sha256) ∧ rest = [[]] ∧
        d = ⟨m, s.progress.receipt sha256⟩ := by
  unfold finish requireEOF
  simp only [bind_ok, throwIf_ok, pure_ok, not_not, exists_const]
  have hterminal : (∃ u, parseTerminal line (s.progress.receipt sha256) = .ok u) ↔
      line = terminalLine (s.progress.receipt sha256) :=
    ⟨fun ⟨_, hu⟩ => (parseTerminal_ok h.lt.1 h.lt.2 hE).1 hu,
      fun e => ⟨(), (parseTerminal_ok h.lt.1 h.lt.2 hE).2 e⟩⟩
  rw [← hterminal]
  constructor
  · rintro ⟨u, hu, hrest, rfl⟩
    exact ⟨⟨u, hu⟩, hrest, rfl⟩
  · rintro ⟨⟨u, hu⟩, hrest, rfl⟩
    exact ⟨u, hu, hrest, rfl⟩

/-- **The loop of the decoder** accepts the lines of pieces of which only full ones are followed. -/
theorem decodeFrames_ok (sha256 : List UInt8 → Digest) (hlimits : limits.Sound) (m : Metadata) {segs : List (List Char)}
    {s : DecodeState} {d : Decoded} (h : Room limits s.progress []) :
    decodeFrames sha256 limits m segs s = (p, .ok d) ↔ ∃ pieces, Room limits s.progress pieces ∧
      Follows s.previousSize pieces ∧ segs = body sha256 s.progress pieces ++ [[]] ∧
        p = (s.progress.after pieces).plaintext ∧ d = ⟨m, (s.progress.after pieces).receipt sha256⟩ := by
  induction segs generalizing s with
  | nil =>
    refine ⟨fun hrun => (nomatch (Prod.mk.inj hrun).2), ?_⟩
    rintro ⟨pieces, -, -, hsegs, -⟩
    exact absurd hsegs.symm (by simp)
  | cons segment rest ih =>
    unfold decodeFrames
    constructor
    · intro hrun
      split at hrun
      · cases (Prod.mk.inj hrun).2
      next line hread =>
      obtain ⟨⟨hrest, -⟩, rfl⟩ := readLine_ok.1 hread
      split at hrun
      · next hD =>
        split at hrun
        · cases (Prod.mk.inj hrun).2
        next s' hconsume =>
        obtain ⟨data, hadmits, rfl, rfl⟩ := (consumeDataFrame_ok hlimits hD).1 hconsume
        let piece : Piece := ⟨data, hadmits.nonempty, hadmits.size⟩
        obtain ⟨hfull, hroom⟩ : s.previousSize = payloadChunkSize ∧ Room limits s.progress [piece] :=
          admits_iff.1 hadmits
        obtain ⟨pieces, hpieces, hfollows, rfl, rfl, rfl⟩ := (ih (room_cons.1 hroom)).1 hrun
        refine ⟨piece :: pieces, room_cons.2 hpieces, ⟨hfull, hfollows⟩, ?_, ?_, ?_⟩
        · rw [body_cons, List.cons_append]
        · rw [Progress.after_cons]
        · rw [Progress.after_cons]
      · split at hrun
        · next hE =>
          obtain ⟨rfl, hfinish⟩ := Prod.mk.inj hrun
          obtain ⟨rfl, rfl, rfl⟩ := (finish_ok h hE).1 hfinish
          refine ⟨[], h, trivial, ?_, ?_, ?_⟩
          · rw [body_nil]
            rfl
          · rw [Progress.after_nil]
          · rw [Progress.after_nil]
        · cases (Prod.mk.inj hrun).2
    · rintro ⟨pieces, hroom, hfollows, hsegs, rfl, rfl⟩
      cases pieces with
      | nil =>
        rw [body_nil, List.singleton_append] at hsegs
        obtain ⟨rfl, rfl⟩ := List.cons.inj hsegs
        have hread : readLine (terminalLine (s.progress.receipt sha256)) [[]] =
            .ok (terminalLine (s.progress.receipt sha256)) :=
          readLine_ok.2 ⟨⟨by simp, length_terminalLine h.lt.1 h.lt.2⟩, rfl⟩
        obtain ⟨hD, hE⟩ := terminalLine_letter (s.progress.receipt sha256)
        rw [Progress.after_nil]
        simp only [hread, hD, hE, Bool.false_eq_true, if_false, if_true, Prod.mk.injEq, true_and]
        exact (finish_ok h hE).2 ⟨rfl, rfl, rfl⟩
      | cons piece pieces =>
        obtain ⟨hfull, hnext⟩ := hfollows
        rw [body_cons, List.cons_append] at hsegs
        obtain ⟨rfl, rfl⟩ := List.cons.inj hsegs
        have hroom' := room_cons.1 hroom
        have hadmits : Admits limits s piece.bytes := admits_iff.2 ⟨hfull, room_cons.2 hroom'.nil⟩
        have hread : readLine (dataLine s.progress.frames piece.bytes)
            (body sha256 (s.progress.push piece.bytes) pieces ++ [[]]) =
              .ok (dataLine s.progress.frames piece.bytes) :=
          readLine_ok.2 ⟨⟨by simp, length_dataLine (lt_trans hadmits.frames hlimits.sequence) piece⟩, rfl⟩
        have hD := dataLine_letter s.progress.frames piece.bytes
        have hconsume := (consumeDataFrame_ok hlimits hD).2 ⟨piece.bytes, hadmits, rfl, rfl⟩
        simp only [hread, hD, if_true, hconsume]
        refine (ih hroom'.nil).2 ⟨pieces, hroom', hnext, rfl, ?_, ?_⟩
        · rw [Progress.after_cons]
        · rw [Progress.after_cons]

/-- **The decoder** accepts the envelopes of pieces of which only full ones are followed. -/
theorem decode_ok (sha256 : List UInt8 → Digest) (hlimits : limits.Sound) :
    decode sha256 limits wire = (p, .ok ⟨m, r⟩) ↔ ∃ pieces, m.valid = true ∧ Room limits .start pieces ∧
      Follows payloadChunkSize pieces ∧ wire = toBytes (unlines (envelope sha256 m pieces)) ∧
        p = payloadOf pieces ∧ r = (Progress.start.after pieces).receipt sha256 := by
  have hstart : Room limits .start [] := ⟨Nat.zero_le _, Nat.zero_le _⟩
  have hnonzero : ¬ (limits.maxBytes = 0 ∨ limits.maxFrames = 0) :=
    fun h => h.elim hlimits.bytes hlimits.frames
  unfold decode
  rw [if_neg hnonzero]
  constructor
  · intro h
    split at h
    · cases (Prod.mk.inj h).2
    next segment rest hsegments =>
    split at h
    · cases (Prod.mk.inj h).2
    next metadata hheader =>
    obtain ⟨line, hread, hparse⟩ := bind_ok.1 hheader
    obtain ⟨-, rfl⟩ := readLine_ok.1 hread
    obtain ⟨hvalid, rfl⟩ := parseHeader_ok.1 hparse
    obtain ⟨pieces, hroom, hfollows, rfl, rfl, hd⟩ := (decodeFrames_ok sha256 hlimits metadata hstart).1 h
    obtain ⟨rfl, rfl⟩ := Decoded.mk.inj hd
    refine ⟨pieces, hvalid, hroom, hfollows, ?_, rfl, rfl⟩
    exact (segments_ofBytes_iff (plain_envelope sha256 hvalid pieces)).1 hsegments
  · rintro ⟨pieces, hvalid, hroom, hfollows, hwire, rfl, rfl⟩
    have hsegments := (segments_ofBytes_iff (plain_envelope sha256 hvalid pieces)).2 hwire
    have hread : readLine (headerLine m) (body sha256 .start pieces ++ [[]]) = .ok (headerLine m) :=
      readLine_ok.2 ⟨⟨by simp, length_headerLine hvalid⟩, rfl⟩
    have hheader : (readLine (headerLine m) (body sha256 .start pieces ++ [[]]) >>= parseHeader) = .ok m :=
      bind_ok.2 ⟨_, hread, parseHeader_ok.2 ⟨hvalid, rfl⟩⟩
    rw [hsegments, envelope, List.cons_append]
    dsimp only
    rw [hheader]
    exact (decodeFrames_ok sha256 hlimits m hstart).2 ⟨pieces, hroom, hfollows, rfl, rfl, rfl⟩

/-- What is decoded is what a reader that fills its buffer makes the encoder write. -/
theorem decode_iff_encode (sha256 : List UInt8 → Digest) (hlimits : limits.Sound) (eofWithLast : Bool) :
    decode sha256 limits wire = (p, .ok ⟨m, r⟩) ↔ m.valid = true ∧ Fits limits p ∧
      encode sha256 limits m (deliver eofWithLast (chunks p)) = (wire, .ok r) := by
  rw [decode_ok sha256 hlimits, encode_ok sha256 hlimits, ← room_start_chunks]
  constructor
  · rintro ⟨pieces, hvalid, hroom, hfollows, hwire, rfl, hr⟩
    rw [follows_chunks hfollows]
    exact ⟨hvalid, hroom, hvalid, hroom, hwire, hr⟩
  · rintro ⟨hvalid, hroom, -, -, hwire, hr⟩
    exact ⟨chunks p, hvalid, hroom, chunks_follows p, hwire, (payloadOf_chunks p).symm, hr⟩

theorem receipt_chunks (sha256 : List UInt8 → Digest) (p : List UInt8) :
    (Progress.start.after (chunks p)).receipt sha256 =
      ⟨(p.length + (payloadChunkSize - 1)) / payloadChunkSize, p.length, sha256 p⟩ := by
  unfold Progress.receipt Progress.after Progress.start
  simp only [payloadOf_chunks, length_chunks, Nat.zero_add, List.nil_append]

/-- **Decoding is the inverse of full-chunk encoding.**  For limits that `NewLimits` accepts, an envelope
is accepted exactly when it is, byte for byte, what the encoder writes for the metadata and the payload
under a reader that fills its buffer; the receipt counts and hashes that payload.  Every payload within
the limits has such an envelope, and only one. -/
theorem decode_eq_ok_iff_encode_full (sha256 : List UInt8 → Digest) {maxBytes maxFrames : UInt64}
    {limits : Limits} (hlimits : newLimits maxBytes maxFrames = .ok limits) (eofWithLast : Bool) :
    (∀ wire p m r, decode sha256 limits wire = (p, .ok ⟨m, r⟩) ↔ m.valid = true ∧ Fits limits p ∧
      encode sha256 limits m (deliver eofWithLast (chunks p)) = (wire, .ok r)) ∧
    (∀ wire p m r, decode sha256 limits wire = (p, .ok ⟨m, r⟩) →
      r = ⟨(p.length + (payloadChunkSize - 1)) / payloadChunkSize, p.length, sha256 p⟩) ∧
    (∀ p m, m.valid = true → Fits limits p →
      ∃ wire r, encode sha256 limits m (deliver eofWithLast (chunks p)) = (wire, .ok r) ∧
        decode sha256 limits wire = (p, .ok ⟨m, r⟩)) ∧
    (∀ wire wire' p m r r', decode sha256 limits wire = (p, .ok ⟨m, r⟩) →
      decode sha256 limits wire' = (p, .ok ⟨m, r'⟩) → wire = wire') := by
  have hsound := newLimits_ok hlimits
  refine ⟨fun wire p m r => decode_iff_encode sha256 hsound eofWithLast, ?_, ?_, ?_⟩
  · intro wire p m r h
    obtain ⟨-, -, hencode⟩ := (decode_iff_encode sha256 hsound eofWithLast).1 h
    rw [((encode_ok sha256 hsound).1 hencode).2.2.2, receipt_chunks]
  · intro p m hvalid hfits
    have hencode : encode sha256 limits m (deliver eofWithLast (chunks p)) =
        (toBytes (unlines (envelope sha256 m (chunks p))),
          .ok ((Progress.start.after (chunks p)).receipt sha256)) :=
      (encode_ok sha256 hsound).2 ⟨hvalid, room_start_chunks.2 hfits, rfl, rfl⟩
    exact ⟨_, _, hencode, (decode_iff_encode sha256 hsound eofWithLast).2 ⟨hvalid, hfits, hencode⟩⟩
  · intro wire wire' p m r r' h h'
    obtain ⟨-, -, hencode⟩ := (decode_iff_encode sha256 hsound eofWithLast).1 h
    obtain ⟨-, -, hencode'⟩ := (decode_iff_encode sha256 hsound eofWithLast).1 h'
    rw [hencode] at hencode'
    exact (Prod.mk.inj hencode').1

end Canonical

namespace Sample

def limits : Limits := ⟨4096, 2⟩

def metadata : Metadata := ⟨.PostgreSQL, "16.4", .PGCustom, none⟩

/-- A stand-in for the hash: the first bytes of the payload. -/
def sha256 (payload : List UInt8) : Digest := copyDigest payload

end Sample

theorem decode_eq_ok_iff_encode_full_two : newLimits 4096 2 = .ok Sample.limits ∧
    ∃ wire r, encode Sample.sha256 Sample.limits Sample.metadata (deliver true (chunks [104, 105])) =
      (wire, .ok r) ∧
      decode Sample.sha256 Sample.limits wire = ([104, 105], .ok ⟨Sample.metadata, r⟩) := by
  have hlimits : newLimits 4096 2 = .ok Sample.limits := rfl
  have hfits : Fits Sample.limits [104, 105] := ⟨by decide, by decide⟩
  exact ⟨hlimits, (decode_eq_ok_iff_encode_full Sample.sha256 hlimits true).2.2.1 [104, 105]
    Sample.metadata (by decide) hfits⟩

end RaibitServer.RecoveryWire
