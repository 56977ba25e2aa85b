import RaibitServer.RecoveryWire.Codec

/-!
# RecoveryWire.Parsing — what each reader of a line accepts

One equivalence for each reader: it accepts a line exactly when the line is the one the encoder writes
for what it returns.  The checks that print a value again and compare are what excludes a second
spelling.
-/

namespace RaibitServer.RecoveryWire

open Lib Lib.Lines

/-! ### Metadata -/

theorem text_named {α : Type} {values : List α} {text : α → String} {other : String → α}
    (hother : ∀ t, text (other t) = t) (t : String) : text (named values text other t) = t := by
  unfold named
  cases hfind : values.find? fun a => text a = t with
  | none => exact hother t
  | some a =>
    have ha := List.find?_some hfind
    exact of_decide_eq_true ha

theorem Engine.text_ofText (t : String) : (Engine.ofText t).text = t := text_named (fun _ => rfl) t

theorem Format.text_ofText (t : String) : (Format.ofText t).text = t := text_named (fun _ => rfl) t

theorem Engine.ofText_text : ∀ e ∈ Engine.all, Engine.ofText e.text = e := by decide

theorem Format.ofText_text : ∀ f ∈ Format.all, Format.ofText f.text = f := by decide

variable {e : Engine} {f : Format} {m m' : Metadata} {line : List Char}

theorem supports_all (h : supports e f = true) : e ∈ Engine.all ∧ f ∈ Format.all := by
  cases e <;> simp only [supports, decide_eq_true_eq, Bool.false_eq_true] at h <;> subst h <;> decide

theorem newMetadata_ok {v : String} :
    newMetadata e v f = .ok m ↔
      (versionPattern v = true ∧ supports e f = true) ∧ m = ⟨e, v, f, none⟩ := by
  unfold newMetadata
  simp only [bind_ok, throwIf_ok, pure_ok, exists_const, not_or, not_not]
  exact and_congr_right fun _ => eq_comm

theorem Metadata.valid_iff :
    m.valid = true ↔ (versionPattern m.version = true ∧ supports m.engine m.format = true) ∧
      m.baseline.all Baseline.valid = true := by
  unfold Metadata.valid
  rw [Bool.and_eq_true]
  refine and_congr_left fun _ => ?_
  cases hnew : newMetadata m.engine m.version m.format with
  | ok a => exact ⟨fun _ => (newMetadata_ok.1 hnew).1, fun _ => rfl⟩
  | error e =>
    refine ⟨fun h => (nomatch h), fun h => ?_⟩
    rw [newMetadata_ok.2 ⟨h, rfl⟩] at hnew
    cases hnew

theorem newBaseline_ok {schema data : Digest} {n : UInt64} {b : Baseline} :
    newBaseline schema data n = .ok b ↔ b = ⟨schema, data, n⟩ ∧ b.valid = true := by
  unfold newBaseline
  simp only [bind_ok, throwIf_ok, pure_ok, exists_const, not_not]
  constructor
  · rintro ⟨hvalid, rfl⟩
    exact ⟨rfl, hvalid⟩
  · rintro ⟨rfl, hvalid⟩
    exact ⟨hvalid, rfl⟩

theorem withBaseline_ok {b : Baseline} :
    m.withBaseline b = .ok m' ↔ b.valid = true ∧ m' = { m with baseline := some b } := by
  unfold Metadata.withBaseline
  simp only [bind_ok, throwIf_ok, pure_ok, exists_const, not_not]
  exact and_congr_right fun _ => eq_comm

/-! ### The header -/

theorem copyDigest_bytes (d : Digest) : copyDigest d.bytes = d := by
  have htake : (d.bytes ++ List.replicate 32 0).take 32 = d.bytes := by
    rw [← d.length, List.take_left]
  unfold copyDigest
  cases d
  simp only [Digest.mk.injEq] at htake ⊢
  exact htake

theorem parseDigestField_ok {field pre : List Char} {d : Digest} :
    parseDigestField field pre = .ok d ↔ field = pre ++ Hex.encode d.bytes := by
  unfold parseDigestField
  simp only [bind_ok, throwIf_ok, pure_ok, orThrow_ok, exists_const, not_not, cutPrefix_eq_some]
  constructor
  · rintro ⟨value, rfl, hlen, decoded, -, rfl, rfl⟩
    -- 64 digits are 32 bytes, so the array holds all of them
    have hbytes : decoded.length = 32 := by
      rw [Hex.length_encode] at hlen
      omega
    rw [show copyDigest decoded = ⟨decoded, hbytes⟩ from copyDigest_bytes ⟨decoded, hbytes⟩]
  · rintro rfl
    have hlen : (Hex.encode d.bytes).length = 64 := by rw [Hex.length_encode, d.length]
    exact ⟨_, rfl, hlen, d.bytes, Hex.decode_encode _, rfl, copyDigest_bytes d⟩

theorem parseBaseline_ok {schema data records : List Char} :
    parseBaseline m schema data records = .ok m' ↔
      ∃ b : Baseline, b.valid = true ∧ [schema, data, records] = baselineFields (some b) ∧
        m' = { m with baseline := some b } := by
  unfold parseBaseline
  simp only [bind_ok, orThrow_ok, mapError_ok, parseDigestField_ok, cutPrefix_eq_some,
    parseCanonicalUint_eq_some, newBaseline_ok, withBaseline_ok]
  constructor
  · rintro ⟨schema, rfl, data, rfl, value, rfl, n, ⟨rfl, hn⟩, b, ⟨rfl, hvalid⟩, -, rfl⟩
    refine ⟨_, hvalid, ?_, rfl⟩
    simp only [baselineFields, UInt64.toNat_ofNat_of_lt' hn]
  · rintro ⟨b, hvalid, hfields, rfl⟩
    simp only [baselineFields, List.cons.injEq, and_true] at hfields
    obtain ⟨rfl, rfl, rfl⟩ := hfields
    exact ⟨_, rfl, _, rfl, _, rfl, _, ⟨rfl, b.recordCount.toNat_lt⟩, b,
      ⟨by rw [UInt64.ofNat_toNat], hvalid⟩, hvalid, rfl⟩

theorem parseBaselineFields_ok {fields : List (List Char)} (hm : m.baseline = none) :
    parseBaselineFields m fields = .ok m' ↔ ∃ baseline : Option Baseline,
      baseline.all Baseline.valid = true ∧ fields = baselineFields baseline ∧
        m' = { m with baseline := baseline } := by
  unfold parseBaselineFields
  by_cases hnone : fields = ["baseline=none".toList]
  · rw [if_pos hnone]
    constructor
    · intro h
      refine ⟨none, rfl, hnone, ?_⟩
      rw [← hm]
      exact (Except.ok.inj h).symm
    · rintro ⟨baseline, -, hfields, rfl⟩
      cases baseline with
      | none => rw [← hm]
      | some b =>
        rw [hnone] at hfields
        exact absurd (congrArg List.length hfields) (by simp [baselineFields])
  · rw [if_neg hnone]
    constructor
    · intro h
      split at h
      · obtain ⟨b, hvalid, hfields, rfl⟩ := parseBaseline_ok.1 h
        exact ⟨some b, hvalid, hfields, rfl⟩
      · cases h
    · rintro ⟨baseline, hvalid, rfl, rfl⟩
      cases baseline with
      | none => exact absurd rfl hnone
      | some b => exact parseBaseline_ok.2 ⟨b, hvalid, rfl, rfl⟩

theorem baselineFields_ne_nil (baseline : Option Baseline) : baselineFields baseline ≠ [] := by
  cases baseline <;> simp [baselineFields]

/-! ### Fields are plain -/

theorem plain_hex (bytes : List UInt8) : Plain (Hex.encode bytes) := by
  intro c hc
  refine isGraphic_of_isAlphanum ?_
  have hlower := Hex.encode_lowerAlnum hc
  rcases Bool.or_eq_true_iff.1 hlower with h | h
  · exact Bool.or_eq_true_iff.2 (.inl (Bool.or_eq_true_iff.2 (.inr h)))
  · exact Bool.or_eq_true_iff.2 (.inr h)

theorem plain_base64 (bytes : List UInt8) : Plain (Base64.encode bytes) := by
  intro c hc
  have h := Base64.isBase64_of_mem_encode hc
  simp only [Base64.isBase64, Bool.or_eq_true, decide_eq_true_eq] at h
  rcases h with ((h | rfl) | rfl) | rfl
  · exact isGraphic_of_isAlphanum h
  · decide
  · decide
  · decide

theorem plain_version {v : String} (h : versionPattern v = true) :
    Plain v.toList ∧ v.toList.length ≤ 32 := by
  unfold versionPattern Text.headTail at h
  cases hv : v.toList with
  | nil =>
    rw [hv] at h
    cases h
  | cons c cs =>
    rw [hv] at h
    simp only [Bool.and_eq_true, List.all_eq_true, decide_eq_true_eq] at h
    obtain ⟨⟨hc, hcs⟩, hlen⟩ := h
    refine ⟨?_, by rw [List.length_cons]; omega⟩
    intro d hd
    rcases List.mem_cons.1 hd with rfl | hd
    · exact isGraphic_of_isAlphanum hc
    · have hd := hcs d hd
      simp only [versionChar, Text.orOneOf, Bool.or_eq_true, List.contains_iff_mem, List.mem_cons,
        List.not_mem_nil, or_false] at hd
      rcases hd with hd | rfl | rfl | rfl
      · exact isGraphic_of_isAlphanum hd
      · decide
      · decide
      · decide

theorem plain_engine (h : e ∈ Engine.all) : Plain e.text.toList ∧ e.text.toList.length ≤ 10 := by
  have hall : ∀ e ∈ Engine.all, e.text.toList.all isGraphic = true ∧ e.text.toList.length ≤ 10 := by decide
  exact ⟨List.all_eq_true.1 (hall e h).1, (hall e h).2⟩

theorem plain_format (h : f ∈ Format.all) : Plain f.text.toList ∧ f.text.toList.length ≤ 18 := by
  have hall : ∀ f ∈ Format.all, f.text.toList.all isGraphic = true ∧ f.text.toList.length ≤ 18 := by decide
  exact ⟨List.all_eq_true.1 (hall f h).1, (hall f h).2⟩

theorem plain_baselineFields (baseline : Option Baseline) : ∀ f ∈ baselineFields baseline, Plain f := by
  cases baseline with
  | none => exact List.forall_mem_singleton.2 (List.all_eq_true.1 (by decide))
  | some b =>
    intro f hf
    simp only [baselineFields, List.mem_cons, List.not_mem_nil, or_false] at hf
    rcases hf with rfl | rfl | rfl
    · exact Plain.append (List.all_eq_true.1 (by decide)) (plain_hex _)
    · exact Plain.append (List.all_eq_true.1 (by decide)) (plain_hex _)
    · exact Plain.append (List.all_eq_true.1 (by decide)) (plain_formatUint _)

theorem plain_header (h : m.valid = true) :
    ∀ f ∈ magic :: m.engine.text.toList :: m.version.toList :: m.format.text.toList ::
      baselineFields m.baseline, Plain f := by
  obtain ⟨⟨hversion, hsupports⟩, -⟩ := Metadata.valid_iff.1 h
  obtain ⟨hengine, hformat⟩ := supports_all hsupports
  intro f hf
  rcases List.mem_cons.1 hf with rfl | hf
  · exact List.all_eq_true.1 (by decide)
  rcases List.mem_cons.1 hf with rfl | hf
  · exact (plain_engine hengine).1
  rcases List.mem_cons.1 hf with rfl | hf
  · exact (plain_version hversion).1
  rcases List.mem_cons.1 hf with rfl | hf
  · exact (plain_format hformat).1
  · exact plain_baselineFields _ f hf

/-- **The header** is read exactly from the line of valid metadata. -/
theorem parseHeader_ok : parseHeader line = .ok m ↔ m.valid = true ∧ line = headerLine m := by
  constructor
  · intro h
    unfold parseHeader at h
    split at h
    · next first engine version format field fields hsplit =>
      simp only [bind_ok, throwIf_ok, mapError_ok, newMetadata_ok, exists_const, not_not] at h
      obtain ⟨rfl, metadata, ⟨hchecks, rfl⟩, h⟩ := h
      obtain ⟨baseline, hbaseline, hfields, rfl⟩ := (parseBaselineFields_ok rfl).1 h
      refine ⟨Metadata.valid_iff.2 ⟨hchecks, hbaseline⟩, ?_⟩
      have hline : line = spaced (magic :: engine :: version :: format :: field :: fields) := by
        rw [← hsplit, spaced_splitFields]
      rw [hline, hfields]
      unfold headerLine
      simp only [Engine.text_ofText, Format.text_ofText, String.toList_ofList]
    · cases h
  · rintro ⟨hvalid, rfl⟩
    have hsplit := splitFields_plain (plain_header hvalid) (by simp)
    obtain ⟨hchecks, hbaseline⟩ := Metadata.valid_iff.1 hvalid
    obtain ⟨hengine, hformat⟩ := supports_all hchecks.2
    obtain ⟨field, fields, hfields⟩ := List.exists_cons_of_ne_nil (baselineFields_ne_nil m.baseline)
    unfold parseHeader headerLine
    rw [hsplit, hfields]
    simp only [bind_ok, throwIf_ok, mapError_ok, exists_const, not_not, true_and, String.ofList_toList]
    rw [Engine.ofText_text _ hengine, Format.ofText_text _ hformat, ← hfields]
    exact ⟨_, newMetadata_ok.2 ⟨hchecks, rfl⟩, (parseBaselineFields_ok rfl).2
      ⟨m.baseline, hbaseline, rfl, rfl⟩⟩

/-! ### Frames -/

theorem plain_dataLine (n : Nat) (data : List UInt8) :
    ∀ f ∈ [['D'], zeroPad 10 n, Base64.encode data], Plain f := by
  simp only [List.forall_mem_cons, List.not_mem_nil, false_implies, implies_true, and_true]
  exact ⟨List.all_eq_true.1 (by decide), plain_zeroPad 10 n, plain_base64 data⟩

theorem plain_terminalLine (r : Receipt) :
    ∀ f ∈ [['E'], formatUint r.frames, formatUint r.plaintextBytes, Hex.encode r.sha256.bytes],
      Plain f := by
  simp only [List.forall_mem_cons, List.not_mem_nil, false_implies, implies_true, and_true]
  exact ⟨List.all_eq_true.1 (by decide), plain_formatUint _, plain_formatUint _, plain_hex _⟩

/-- What follows the letter of a frame, as fields. -/
theorem splitFields_letter (letter : Char) (hletter : letter ≠ ' ') (h : [letter, ' '].isPrefixOf line = true) :
    ∃ rest, line = letter :: ' ' :: rest ∧ splitFields line = [letter] :: splitFields rest := by
  obtain ⟨rest, rfl⟩ := List.isPrefixOf_iff_prefix.1 h
  have hspace : ' ' ∉ [letter] := by simpa using hletter.symm
  exact ⟨rest, rfl, splitFields_cons hspace⟩

/-- The counts stay within limits that `NewLimits` accepts. -/
structure Limits.Sound (limits : Limits) : Prop where
  bytes : limits.maxBytes ≠ 0
  frames : limits.maxFrames ≠ 0
  sequence : limits.maxFrames.toNat < 10 ^ 10

theorem newLimits_ok {maxBytes maxFrames : UInt64} {limits : Limits}
    (h : newLimits maxBytes maxFrames = .ok limits) : limits.Sound := by
  unfold newLimits at h
  simp only [bind_ok, throwIf_ok, pure_ok, exists_const, not_or] at h
  obtain ⟨⟨hbytes, hframes, hmax⟩, rfl⟩ := h
  refine ⟨hbytes, hframes, ?_⟩
  have hle : maxFrames.toNat ≤ maxSequenceFrames.toNat := UInt64.le_iff_toNat_le.1 (by simpa using hmax)
  have hconst : maxSequenceFrames.toNat = 9999999999 := rfl
  show maxFrames.toNat < 10 ^ 10
  omega

/-- `data` may follow: the frame before was full and the limits leave room. -/
structure Admits (limits : Limits) (s : DecodeState) (data : List UInt8) : Prop where
  full : s.previousSize = payloadChunkSize
  nonempty : data ≠ []
  size : data.length ≤ payloadChunkSize
  frames : s.progress.frames < limits.maxFrames.toNat
  bytes : data.length ≤ limits.maxBytes.toNat - s.progress.plaintextBytes

theorem length_encode_le {data : List UInt8} :
    (Base64.encode data).length ≤ encodedLen payloadChunkSize ↔ data.length ≤ payloadChunkSize := by
  rw [Base64.length_encode]
  unfold encodedLen payloadChunkSize
  omega

/-- **A data frame** is read exactly from the line of the next piece. -/
theorem consumeDataFrame_ok {limits : Limits} (hlimits : limits.Sound) {s s' : DecodeState}
    (hD : "D ".toList.isPrefixOf line = true) :
    consumeDataFrame limits s line = .ok s' ↔ ∃ data, Admits limits s data ∧
      line = dataLine s.progress.frames data ∧ s' = ⟨s.progress.push data, data.length⟩ := by
  constructor
  · intro h
    obtain ⟨rest, hline, hsplit⟩ := splitFields_letter 'D' (by decide) hD
    unfold consumeDataFrame at h
    simp only [bind_ok, throwIf_ok, exists_const, not_not] at h
    obtain ⟨hfull, h⟩ := h
    rw [hsplit] at h
    split at h
    · next first number encoded hfields =>
      simp only [bind_ok, throwIf_ok, orThrow_ok, pure_ok, exists_const, not_or, not_not, ge_iff_le,
        not_le, gt_iff_lt, not_lt] at h
      obtain ⟨-, sequence, -, ⟨rfl, rfl⟩, ⟨hframes, hlen⟩, data, -, ⟨hne, rfl⟩, hbytes, rfl⟩ := h
      refine ⟨data, ⟨hfull, hne, length_encode_le.1 hlen, hframes, hbytes⟩, ?_, rfl⟩
      unfold dataLine
      rw [← spaced_splitFields line, hsplit, hfields, (List.cons.inj hfields).1]
    · cases h
  · rintro ⟨data, ⟨hfull, hne, hsize, hframes, hbytes⟩, rfl, rfl⟩
    have hseq : s.progress.frames < 10 ^ 10 := lt_trans hframes hlimits.sequence
    have hsplit := splitFields_plain (plain_dataLine s.progress.frames data) (by simp)
    unfold consumeDataFrame dataLine
    rw [hsplit]
    simp only [bind_ok, throwIf_ok, orThrow_ok, pure_ok, exists_const, not_or, not_not, ge_iff_le,
      not_le, gt_iff_lt, not_lt]
    refine ⟨hfull, ⟨(length_zeroPad (by omega)).2 hseq, ?_⟩, s.progress.frames,
      parseUint_zeroPad (by omega), ⟨rfl, rfl⟩, ⟨hframes, length_encode_le.2 hsize⟩, data,
      Base64.decode_encode data, ⟨hne, rfl⟩, hbytes, rfl⟩
    rw [Base64.encode_eq_nil]
    exact hne

/-- **The terminal frame** is read exactly from the line of the receipt. -/
theorem parseTerminal_ok {r : Receipt} (hframes : r.frames < 2 ^ 64) (hbytes : r.plaintextBytes < 2 ^ 64)
    (hE : "E ".toList.isPrefixOf line = true) : parseTerminal line r = .ok () ↔ line = terminalLine r := by
  constructor
  · intro h
    obtain ⟨rest, hline, hsplit⟩ := splitFields_letter 'E' (by decide) hE
    unfold parseTerminal at h
    rw [hsplit] at h
    split at h
    · next first frames plaintextBytes hash hfields =>
      simp only [bind_ok, throwIf_ok, orThrow_ok, exists_const, not_or, not_not,
        parseCanonicalUint_eq_some] at h
      obtain ⟨n, ⟨rfl, -⟩, k, ⟨rfl, -⟩, want, -, ⟨-, rfl⟩, rfl, rfl, rfl⟩ := h
      unfold terminalLine
      rw [← spaced_splitFields line, hsplit, hfields, (List.cons.inj hfields).1]
    · cases h
  · rintro rfl
    have hsplit := splitFields_plain (plain_terminalLine r) (by simp)
    unfold parseTerminal terminalLine
    rw [hsplit]
    simp only [bind_ok, throwIf_ok, orThrow_ok, exists_const, not_or, not_not,
      parseCanonicalUint_eq_some]
    exact ⟨r.frames, ⟨rfl, hframes⟩, r.plaintextBytes, ⟨rfl, hbytes⟩, r.sha256.bytes,
      Hex.decode_encode _, ⟨r.sha256.length, rfl⟩, rfl, rfl, rfl⟩

/-! ### Line lengths -/

theorem readLine_ok {segment : List Char} {rest : List (List Char)} :
    readLine segment rest = .ok line ↔ (rest ≠ [] ∧ segment.length < maxLineLength) ∧ line = segment := by
  unfold readLine
  simp only [bind_ok, throwIf_ok, pure_ok, exists_const]
  by_cases hrest : rest = []
  · simp [hrest]
  · simp only [hrest, if_false, not_false_eq_true, true_and, ne_eq, gt_iff_lt, not_lt, eq_comm (a := line)]
    exact Iff.rfl

end RaibitServer.RecoveryWire
