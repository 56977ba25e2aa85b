import RaibitServer.RecoveryWire.Canonical

/-!
# RecoveryWire.Transport — envelopes fit the transport their limits are made for

`limitsForFramedTransport` turns a number of bytes on the wire into limits for the encoder.  Whatever the
reader, an envelope written under these limits has no more bytes than that (`encode_within_transport`): the
frames it counts are never longer than a full one, and header and terminal frame fit the fixed overhead.
-/

namespace RaibitServer.RecoveryWire

open Lib Lib.Lines

def fullFrameWireBytes : UInt64 := 4110

def framedFixedOverhead : UInt64 := 2 * UInt64.ofNat maxLineLength

def limitsForFramedTransport (maxWireBytes : UInt64) : Except WireError Limits := do
  throwIf (maxWireBytes ≤ framedFixedOverhead) .ErrLimitExceeded
  let maxFrames := (maxWireBytes - framedFixedOverhead) / fullFrameWireBytes
  throwIf (maxFrames = 0 ∨ maxFrames > maxSequenceFrames ∨
    maxFrames > 18446744073709551615 / UInt64.ofNat payloadChunkSize) .ErrLimitExceeded
  newLimits (maxFrames * UInt64.ofNat payloadChunkSize) maxFrames

/-- The frames that the limits admit and the two other lines fit the transport. -/
theorem limitsForFramedTransport_ok {maxWireBytes : UInt64} {limits : Limits}
    (h : limitsForFramedTransport maxWireBytes = .ok limits) :
    limits.maxFrames.toNat < 10 ^ 10 ∧
      2 * maxLineLength + limits.maxFrames.toNat * fullFrameWireBytes.toNat ≤ maxWireBytes.toNat := by
  unfold limitsForFramedTransport at h
  obtain ⟨_, hoverhead, h⟩ := bind_ok.1 h
  obtain ⟨_, hframes, h⟩ := bind_ok.1 h
  unfold newLimits at h
  obtain ⟨_, -, h⟩ := bind_ok.1 h
  obtain rfl := pure_ok.1 h
  have hoverhead := UInt64.lt_iff_toNat_lt.1 (UInt64.not_le.1 (throwIf_ok.1 hoverhead))
  have hframes := (not_or.1 (not_or.1 (throwIf_ok.1 hframes)).2).1
  have hsub : (maxWireBytes - framedFixedOverhead).toNat = maxWireBytes.toNat - framedFixedOverhead.toNat :=
    UInt64.toNat_sub_of_le _ _ (UInt64.le_iff_toNat_le.2 hoverhead.le)
  have hfixed : framedFixedOverhead.toNat = 2 * maxLineLength := by decide
  have hcount : (maxWireBytes - framedFixedOverhead).toNat / fullFrameWireBytes.toNat * fullFrameWireBytes.toNat ≤
      (maxWireBytes - framedFixedOverhead).toNat := Nat.div_mul_le_self _ _
  constructor
  · have hmax := UInt64.le_iff_toNat_le.1 (UInt64.not_lt.1 hframes)
    have hlast : maxSequenceFrames.toNat = 9999999999 := by decide
    dsimp only
    omega
  · rw [UInt64.toNat_div]
    omega

/-! ### The lines of a run -/

/-- What the encoder has written on its way from `s` to `s'`. -/
structure Written (limits : Limits) (s s' : Progress) (lines : List (List Char)) : Prop where
  room : Room limits s' []
  count : s.frames + lines.length = s'.frames
  frame : ∀ line ∈ lines, ∃ n data, n < limits.maxFrames.toNat ∧ data.length ≤ payloadChunkSize ∧
    line = dataLine n data

section Run

variable {limits : Limits} {s s' s'' : Progress} {lines lines' : List (List Char)}

theorem Written.refl (h : Room limits s []) : Written limits s s [] := ⟨h, rfl, nofun⟩

theorem Written.trans (h : Written limits s s' lines) (h' : Written limits s' s'' lines') :
    Written limits s s'' (lines ++ lines') := by
  refine ⟨h'.room, ?_, fun line hline => (List.mem_append.1 hline).elim (h.frame line) (h'.frame line)⟩
  rw [List.length_append, ← Nat.add_assoc, h.count, h'.count]

theorem writeFrame_written {data : List UInt8} (hs : Room limits s []) (hdata : data.length ≤ payloadChunkSize)
    (h : writeFrame limits s data = .ok (lines, s')) : Written limits s s' lines := by
  unfold writeFrame at h
  split at h
  · obtain ⟨rfl, rfl⟩ := Prod.mk.inj (Except.ok.inj h)
    exact .refl hs
  · next hne =>
    by_cases hpiece : Room limits s [⟨data, hne, hdata⟩]
    · have hwrite := writeFrame_piece.2 ⟨hpiece, rfl⟩
      unfold writeFrame at hwrite
      rw [if_neg hne] at hwrite
      obtain ⟨rfl, rfl⟩ := Prod.mk.inj (Except.ok.inj (h.symm.trans hwrite))
      refine ⟨room_cons.1 hpiece, rfl, fun line hline => ?_⟩
      have hframes := hpiece.frames
      rw [List.length_singleton] at hframes
      exact ⟨s.frames, data, by omega, hdata, List.mem_singleton.1 hline⟩
    · have hwrite : writeFrame limits s data = .ok (lines, s') := by
        unfold writeFrame
        rw [if_neg hne]
        exact h
      exact absurd (writeFrame_piece.1 hwrite).1 hpiece

/-- The loop, for every reader. -/
theorem encodeFrames_written {reads : List Read} (hs : Room limits s [])
    (h : encodeFrames limits reads s = (lines, .ok s')) : Written limits s s' lines := by
  induction reads generalizing s lines with
  | nil =>
    obtain ⟨rfl, hdone⟩ := Prod.mk.inj h
    obtain rfl := Except.ok.inj hdone
    exact .refl hs
  | cons read reads ih =>
    unfold encodeFrames at h
    split at h
    · cases (Prod.mk.inj h).2
    · next written next hwrite =>
      have hstep := writeFrame_written hs read.le hwrite
      split at h
      · obtain ⟨rfl, hdone⟩ := Prod.mk.inj h
        obtain rfl := Except.ok.inj hdone
        exact hstep
      · cases (Prod.mk.inj h).2
      · split at h
        · cases (Prod.mk.inj h).2
        · obtain ⟨rfl, hrest⟩ := Prod.mk.inj h
          exact hstep.trans (ih hstep.room (Prod.ext rfl hrest))

theorem length_unlines_le {bound : Nat} (h : ∀ line ∈ lines, line.length + 1 ≤ bound) :
    (unlines lines).length ≤ lines.length * bound := by
  induction lines with
  | nil => exact Nat.zero_le _
  | cons line lines ih =>
    obtain ⟨hline, hlines⟩ := List.forall_mem_cons.1 h
    have hrest := ih hlines
    have hlength : (unlines (line :: lines)).length = line.length + 1 + (unlines lines).length := by
      unfold unlines
      rw [List.flatMap_cons, List.length_append, List.length_append, List.length_singleton]
    rw [hlength, List.length_cons, Nat.add_mul]
    omega

theorem length_dataLine_le {n : Nat} (hn : n < 10 ^ 10) {data : List UInt8} (h : data.length ≤ payloadChunkSize) :
    (dataLine n data).length + 1 ≤ fullFrameWireBytes.toNat := by
  have hnumber : (zeroPad 10 n).length = 10 := (length_zeroPad (by omega)).2 hn
  have hencoded := length_encode_le.2 h
  have hfull : fullFrameWireBytes.toNat = 4110 := by decide
  unfold dataLine
  rw [length_spaced_cons, length_spaced_cons, spaced_singleton, hnumber, List.length_singleton]
  unfold encodedLen payloadChunkSize at hencoded
  omega

end Run

/-- **The transport**: every envelope fits it, and every line the buffer of the decoder. -/
theorem encode_within_transport (sha256 : List UInt8 → Digest) {maxWireBytes : UInt64} {limits : Limits}
    (hlimits : limitsForFramedTransport maxWireBytes = .ok limits) {m : Metadata} {reads : List Read}
    {wire : List UInt8} {r : Receipt} (h : encode sha256 limits m reads = (wire, .ok r)) :
    wire.length ≤ maxWireBytes.toNat ∧ ∀ line ∈ segments (ofBytes wire), line.length + 1 ≤ maxLineLength := by
  obtain ⟨hsequence, htransport⟩ := limitsForFramedTransport_ok hlimits
  unfold encode at h
  split at h
  · exact nomatch (Prod.mk.inj h).2
  split at h
  · exact nomatch (Prod.mk.inj h).2
  next hvalid =>
  dsimp only at h
  split at h
  · exact nomatch (Prod.mk.inj h).2
  next s hs =>
  obtain ⟨rfl, -⟩ := Prod.mk.inj h
  generalize hframes : (encodeFrames limits reads .start).1 = frames
  have hwritten : Written limits .start s frames :=
    encodeFrames_written ⟨Nat.zero_le _, Nat.zero_le _⟩ (Prod.ext hframes hs)
  have hheader := length_headerLine (not_not.1 hvalid)
  have hterminal := length_terminalLine (r := s.receipt sha256) hwritten.room.lt.1 hwritten.room.lt.2
  have hframe : ∀ line ∈ frames, line.length + 1 ≤ fullFrameWireBytes.toNat := by
    intro line hline
    obtain ⟨n, data, hn, hdata, rfl⟩ := hwritten.frame line hline
    exact length_dataLine_le (hn.trans hsequence) hdata
  have hplain : ∀ line ∈ headerLine m :: (frames ++ [terminalLine (s.receipt sha256)]),
      ∀ c ∈ line, c ≠ '\n' ∧ c.toNat < 256 := by
    refine List.forall_mem_cons.2 ⟨spaced_plain (plain_header (not_not.1 hvalid)), fun line hline => ?_⟩
    rcases List.mem_append.1 hline with hline | hline
    · obtain ⟨n, data, -, -, rfl⟩ := hwritten.frame line hline
      exact spaced_plain (plain_dataLine n data)
    · obtain rfl := List.mem_singleton.1 hline
      exact spaced_plain (plain_terminalLine _)
  constructor
  · have hcount : frames.length ≤ limits.maxFrames.toNat := by
      have hroom := hwritten.room.frames
      have hlines := hwritten.count
      unfold Progress.start at hlines
      rw [List.length_nil] at hroom
      omega
    have hbody := (length_unlines_le hframe).trans (Nat.mul_le_mul_right _ hcount)
    unfold toBytes unlines
    unfold unlines at hbody
    rw [List.length_map, List.flatMap_cons, List.flatMap_append, List.flatMap_singleton]
    simp only [List.length_append, List.length_singleton]
    omega
  · rw [(segments_ofBytes_iff hplain).2 rfl]
    intro line hline
    have hfull : fullFrameWireBytes.toNat ≤ maxLineLength := by decide
    rcases List.mem_append.1 hline with hline | hline
    · rcases List.mem_cons.1 hline with rfl | hline
      · exact hheader
      · rcases List.mem_append.1 hline with hline | hline
        · exact (hframe line hline).trans hfull
        · obtain rfl := List.mem_singleton.1 hline
          exact hterminal
    · obtain rfl := List.mem_singleton.1 hline
      decide

open Sample in
/-- One byte on a transport for one frame. -/
theorem encode_within_transport_byte :
    limitsForFramedTransport 20494 = .ok ⟨3072, 1⟩ ∧
      (encode sha256 ⟨3072, 1⟩ metadata [⟨[104], some .EOF, by decide⟩]).1.length ≤ 20494 := by
  have hlimits : limitsForFramedTransport 20494 = .ok ⟨3072, 1⟩ := by decide +kernel
  have hencode : encode sha256 ⟨3072, 1⟩ metadata [⟨[104], some .EOF, by decide⟩] =
      ((encode sha256 ⟨3072, 1⟩ metadata [⟨[104], some .EOF, by decide⟩]).1, .ok ⟨1, 1, sha256 [104]⟩) := by
    decide +kernel
  exact ⟨hlimits, (encode_within_transport sha256 hlimits hencode).1⟩

end RaibitServer.RecoveryWire
