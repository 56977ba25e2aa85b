import RaibitServer.RecoveryWire.Canonical

/-!
# RecoveryWire.ShortReads — envelopes of readers that do not fill the buffer

The encoder writes one frame for each read, whatever its size; the decoder lets no frame follow one that
is not full.  An envelope written under short reads is therefore accepted exactly when the reader was
short on its last piece only.
-/

namespace RaibitServer.RecoveryWire

open Lib Lib.Lines

/-! ### The pieces can be read off the envelope -/

theorem dataLine_injective {n : Nat} {a b : List UInt8} (h : dataLine n a = dataLine n b) : a = b := by
  have hfields := congrArg splitFields h
  unfold dataLine at hfields
  rw [splitFields_plain (plain_dataLine n a) (by simp), splitFields_plain (plain_dataLine n b) (by simp)]
    at hfields
  simp only [List.cons.injEq, true_and, and_true] at hfields
  exact Base64.encode_injective hfields

theorem terminalLine_ne_dataLine (r : Receipt) (n : Nat) (data : List UInt8) :
    terminalLine r ≠ dataLine n data := by
  intro h
  have hletter := (terminalLine_letter r).1
  rw [h, dataLine_letter] at hletter
  cases hletter

theorem Piece.ext {a b : Piece} (h : a.bytes = b.bytes) : a = b := by
  cases a
  cases b
  simpa using h

theorem body_injective {sha256 : List UInt8 → Digest} {s : Progress} {a b : List Piece}
    (h : body sha256 s a = body sha256 s b) : a = b := by
  induction a generalizing b s with
  | nil =>
    cases b with
    | nil => rfl
    | cons q b =>
      rw [body_nil, body_cons] at h
      exact absurd (List.cons.inj h).1 (terminalLine_ne_dataLine _ _ _)
  | cons p a ih =>
    cases b with
    | nil =>
      rw [body_nil, body_cons] at h
      exact absurd (List.cons.inj h).1.symm (terminalLine_ne_dataLine _ _ _)
    | cons q b =>
      rw [body_cons, body_cons] at h
      obtain ⟨hline, hrest⟩ := List.cons.inj h
      have hbytes := dataLine_injective hline
      rw [← hbytes] at hrest
      rw [Piece.ext hbytes, ih hrest]

theorem envelope_injective {sha256 : List UInt8 → Digest} {m : Metadata} (hm : m.valid = true)
    {a b : List Piece}
    (h : toBytes (unlines (envelope sha256 m a)) = toBytes (unlines (envelope sha256 m b))) : a = b := by
  have hb := (segments_ofBytes_iff (plain_envelope sha256 hm b)).2 h
  rw [(segments_ofBytes_iff (plain_envelope sha256 hm a)).2 rfl] at hb
  have hlines := List.append_cancel_right hb
  exact body_injective (List.cons.inj hlines).2

theorem follows_iff {size : Nat} {piece : Piece} {pieces : List Piece} :
    Follows size (piece :: pieces) ↔ size = payloadChunkSize ∧
      ∀ q ∈ (piece :: pieces).dropLast, q.bytes.length = payloadChunkSize := by
  induction pieces generalizing size piece with
  | nil => exact ⟨fun h => ⟨h.1, fun q hq => (nomatch hq)⟩, fun h => ⟨h.1, trivial⟩⟩
  | cons next pieces ih =>
    rw [List.dropLast_cons_of_ne_nil (List.cons_ne_nil _ _), List.forall_mem_cons]
    show size = payloadChunkSize ∧ Follows piece.bytes.length (next :: pieces) ↔ _
    rw [ih]

/-- **An encoding is decodable exactly when only the last read was short.** -/
theorem decode_encode_iff_full (sha256 : List UInt8 → Digest) {maxBytes maxFrames : UInt64}
    {limits : Limits} (hlimits : newLimits maxBytes maxFrames = .ok limits) {m : Metadata}
    {eofWithLast : Bool} {pieces : List Piece} {wire : List UInt8} {r : Receipt}
    (hencode : encode sha256 limits m (deliver eofWithLast pieces) = (wire, .ok r)) :
    decode sha256 limits wire = (payloadOf pieces, .ok ⟨m, r⟩) ↔
      ∀ piece ∈ pieces.dropLast, piece.bytes.length = payloadChunkSize := by
  have hsound := newLimits_ok hlimits
  obtain ⟨hvalid, hroom, rfl, rfl⟩ := (encode_ok sha256 hsound).1 hencode
  have hfollows : Follows payloadChunkSize pieces ↔
      ∀ piece ∈ pieces.dropLast, piece.bytes.length = payloadChunkSize := by
    cases pieces with
    | nil => exact ⟨fun _ q hq => (nomatch hq), fun _ => trivial⟩
    | cons piece pieces => rw [follows_iff, and_iff_right rfl]
  rw [← hfollows, decode_ok sha256 hsound]
  constructor
  · rintro ⟨pieces', -, -, hpieces', hwire, -, -⟩
    rw [envelope_injective hvalid hwire]
    exact hpieces'
  · intro h
    exact ⟨pieces, hvalid, hroom, h, rfl, rfl, rfl⟩

namespace Sample

/-- A piece of one byte. -/
def byte (b : UInt8) : Piece := ⟨[b], by simp, by simp [payloadChunkSize]⟩

def full : Piece := ⟨List.replicate payloadChunkSize 104, List.cons_ne_nil _ _, List.length_replicate.le⟩

end Sample

open Sample in
/-- A full read and a short one behind it. -/
theorem decode_encode_iff_full_byte : newLimits 4096 2 = .ok limits ∧
    ∃ wire r, encode sha256 limits metadata (deliver true [full, byte 105]) = (wire, .ok r) ∧
      decode sha256 limits wire = (full.bytes ++ [105], .ok ⟨metadata, r⟩) := by
  have hlimits : newLimits 4096 2 = .ok limits := rfl
  have hroom : Room limits .start [full, byte 105] := by
    refine ⟨by decide, ?_⟩
    unfold payloadOf full byte payloadChunkSize
    simp only [List.flatMap_cons, List.flatMap_nil, List.length_append, List.length_replicate, List.length_singleton]
    decide
  have hencode : encode sha256 limits metadata (deliver true [full, byte 105]) = (_, .ok _) :=
    (encode_ok sha256 (newLimits_ok hlimits)).2 ⟨by decide, hroom, rfl, rfl⟩
  refine ⟨hlimits, _, _, hencode, (decode_encode_iff_full sha256 hlimits hencode).2 fun piece hpiece => ?_⟩
  rw [List.mem_singleton.1 hpiece]
  exact List.length_replicate

/-- Two reads of one byte each: the encoder succeeds, and the decoder refuses the second frame after
writing the first. -/
theorem short_read_refused :
    (encode Sample.sha256 Sample.limits Sample.metadata
      (deliver false [Sample.byte 104, Sample.byte 105])).2 = .ok ⟨2, 2, Sample.sha256 [104, 105]⟩ ∧
    decode Sample.sha256 Sample.limits
      (encode Sample.sha256 Sample.limits Sample.metadata
        (deliver false [Sample.byte 104, Sample.byte 105])).1 =
      ([104], .error (invalid "data frame size")) := by
  decide +kernel

end RaibitServer.RecoveryWire
