import RaibitServer.Lib.Bytes
import RaibitServer.Lib.Guard

/-!
# RecoveryCache.TtlSidecar — the sidecar file of expiry deadlines

`ttl_sidecar.go` of the cache recovery helper.  A dump of a cache is stored beside a file that has one
record for each key: the digest of its value and whether, and when, it expires.  The file is a magic
word, a count and the records, each with a length-prefixed key.  The digest function is a parameter.

* `encodeTTLRecords_ok`, `parseTTLRecords_ok`: what the writer and the reader accept, in terms of the
  same list of records and the same bytes.
* `ttl_codec`: the two are inverse, and accepted lists are well formed.
-/

namespace RaibitServer.RecoveryCache

open Lib Lib.Bytes

/-! ### Records -/

def ttlSidecarMagic : List UInt8 := [82, 66, 84, 67, 84, 84, 76, 49]

def maxTTLSidecarBytes : Nat := 67108864

def maxTTLKeyBytes : Nat := 1048576

def maxScannedKeys : Nat := 1000000

def ttlPersistent : UInt8 := 0

def ttlExpiring : UInt8 := 1

inductive CacheError
  | ErrLimit
  | ErrOperation
  /-- `safeStep` of an operation that failed. -/
  | step (name : String)
  deriving DecidableEq

/-- `[sha256.Size]byte`. -/
abbrev Digest := { bytes : List UInt8 // bytes.length = 32 }

def zeroDigest : Digest := ⟨List.replicate 32 0, rfl⟩

/-- A digest of one byte, repeated. -/
def repeatedDigest (byte : UInt8) : Digest := ⟨List.replicate 32 byte, List.length_replicate⟩

structure TtlRecord where
  key : List UInt8
  valueSHA : Digest
  kind : UInt8
  deadline : Int64
  deriving DecidableEq

structure TtlDescriptor where
  bytes : Nat
  sha256 : Digest
  deriving DecidableEq

/-! ### The writer -/

def entryBytes (record : TtlRecord) : List UInt8 :=
  bigEndian 4 record.key.length ++
    (record.key ++ (record.valueSHA.1 ++ ([record.kind] ++ bigEndian 8 record.deadline.toUInt64.toNat)))

/-- The loop of `encodeTTLRecords`, with the record written before. -/
def writeRecords : Option TtlRecord → List UInt8 → List TtlRecord → Except CacheError (List UInt8)
  | _, output, [] => .ok output
  | previous, output, record :: records => do
    throwIf (record.key.length = 0 ∨ record.key.length > maxTTLKeyBytes ∨
      (∃ p ∈ previous, ¬ p.key < record.key) ∨ record.valueSHA = zeroDigest ∨ record.kind > ttlExpiring ∨
      (record.kind = ttlPersistent ∧ record.deadline ≠ 0) ∨
      (record.kind = ttlExpiring ∧ record.deadline ≤ 0)) CacheError.ErrOperation
    let entrySize := 4 + record.key.length + 32 + 1 + 8
    throwIf (output.length > maxTTLSidecarBytes - entrySize) CacheError.ErrLimit
    writeRecords (some record) (output ++ entryBytes record) records

def encodeTTLRecords (sha256 : List UInt8 → Digest) (records : List TtlRecord) :
    Except CacheError (List UInt8 × TtlDescriptor) := do
  throwIf (records.length > maxScannedKeys) CacheError.ErrLimit
  let payload ← writeRecords none (ttlSidecarMagic ++ bigEndian 4 records.length) records
  pure (payload, ⟨payload.length, sha256 payload⟩)

/-! ### The reader -/

def readDigest (reader : List UInt8) : Option (Digest × List UInt8) :=
  if h : 32 ≤ reader.length then some (⟨reader.take 32, List.length_take_of_le h⟩, reader.drop 32)
  else none

def readByte : List UInt8 → Option (UInt8 × List UInt8)
  | [] => none
  | b :: reader => some (b, reader)

/-- One turn of the loop of `parseTTLRecords`. -/
def readRecord (previous : Option TtlRecord) (reader : List UInt8) :
    Except CacheError (TtlRecord × List UInt8) := do
  let head ← orThrow (readFull 4 reader) CacheError.ErrOperation
  let keyLength := ofBigEndian head.1
  throwIf (keyLength = 0 ∨ keyLength > maxTTLKeyBytes ∨ keyLength > head.2.length) CacheError.ErrOperation
  let key ← orThrow (readFull keyLength head.2) CacheError.ErrOperation
  let valueSHA ← orThrow (readDigest key.2) CacheError.ErrOperation
  throwIf (valueSHA.1 = zeroDigest) CacheError.ErrOperation
  let kind ← orThrow (readByte valueSHA.2) CacheError.ErrOperation
  let tail ← orThrow (readFull 8 kind.2) CacheError.ErrOperation
  let deadline := (UInt64.ofNat (ofBigEndian tail.1)).toInt64
  throwIf (kind.1 > ttlExpiring ∨ (kind.1 = ttlPersistent ∧ deadline ≠ 0) ∨
    (kind.1 = ttlExpiring ∧ deadline ≤ 0) ∨ ∃ p ∈ previous, ¬ p.key < key.1) CacheError.ErrOperation
  pure (⟨key.1, valueSHA.1, kind.1, deadline⟩, tail.2)

def readRecords : Nat → Option TtlRecord → List UInt8 → Except CacheError (List TtlRecord × List UInt8)
  | 0, _, reader => .ok ([], reader)
  | count + 1, previous, reader => do
    let record ← readRecord previous reader
    let rest ← readRecords count (some record.1) record.2
    pure (record.1 :: rest.1, rest.2)

def parseTTLRecords (payload : List UInt8) : Except CacheError (List TtlRecord) := do
  let magic ← orThrow (readFull ttlSidecarMagic.length payload) CacheError.ErrOperation
  throwIf (magic.1 ≠ ttlSidecarMagic) CacheError.ErrOperation
  let count ← orThrow (readFull 4 magic.2) CacheError.ErrOperation
  throwIf (ofBigEndian count.1 > maxScannedKeys) CacheError.ErrOperation
  let records ← readRecords (ofBigEndian count.1) none count.2
  throwIf (records.2.length ≠ 0) CacheError.ErrOperation
  pure records.1

/-! ### What both accept -/

/-- A record that may stand behind `previous`. -/
structure Acceptable (previous : Option TtlRecord) (record : TtlRecord) : Prop where
  keyNonempty : record.key.length ≠ 0
  keyShort : record.key.length ≤ maxTTLKeyBytes
  ordered : ∀ p ∈ previous, p.key < record.key
  digest : record.valueSHA ≠ zeroDigest
  kind : record.kind ≤ ttlExpiring
  persistent : record.kind = ttlPersistent → record.deadline = 0
  expiring : record.kind = ttlExpiring → 0 < record.deadline

def AcceptedFrom : Option TtlRecord → List TtlRecord → Prop
  | _, [] => True
  | previous, record :: records => Acceptable previous record ∧ AcceptedFrom (some record) records

/-- The bytes of a list of records. -/
def wire (records : List TtlRecord) : List UInt8 :=
  ttlSidecarMagic ++ (bigEndian 4 records.length ++ records.flatMap entryBytes)

theorem length_entryBytes (record : TtlRecord) :
    (entryBytes record).length = 4 + record.key.length + 32 + 1 + 8 := by
  unfold entryBytes
  simp only [List.length_append, length_bigEndian, record.valueSHA.2, List.length_singleton]
  omega

section Reading

variable {payload reader rest : List UInt8} {previous : Option TtlRecord} {records : List TtlRecord}

theorem writeRecords_ok {output : List UInt8} :
    writeRecords previous output records = .ok payload ↔
      AcceptedFrom previous records ∧ payload = output ++ records.flatMap entryBytes ∧
        (records = [] ∨ payload.length ≤ maxTTLSidecarBytes) := by
  induction records generalizing previous output with
  | nil => simp [writeRecords, AcceptedFrom, eq_comm]
  | cons record records ih =>
    have hcheck : (¬ (record.key.length = 0 ∨ record.key.length > maxTTLKeyBytes ∨
        (∃ p ∈ previous, ¬ p.key < record.key) ∨ record.valueSHA = zeroDigest ∨ record.kind > ttlExpiring ∨
        (record.kind = ttlPersistent ∧ record.deadline ≠ 0) ∨
        (record.kind = ttlExpiring ∧ record.deadline ≤ 0))) ↔ Acceptable previous record := by
      constructor
      · intro h
        simp only [not_or, not_exists, not_and, not_not, Std.not_lt, gt_iff_lt, Std.not_le] at h
        obtain ⟨hne, hshort, hordered, hdigest, hkind, hpersistent, hexpiring⟩ := h
        exact ⟨hne, hshort, hordered, hdigest, hkind, hpersistent, hexpiring⟩
      · rintro ⟨hne, hshort, hordered, hdigest, hkind, hpersistent, hexpiring⟩
        simp only [not_or, not_exists, not_and, not_not, Std.not_lt, gt_iff_lt, Std.not_le]
        exact ⟨hne, hshort, hordered, hdigest, hkind, hpersistent, hexpiring⟩
    have hsize := length_entryBytes record
    rw [writeRecords]
    simp only [bind_ok, throwIf_ok, hcheck, ih, exists_const, List.flatMap_cons, ← List.append_assoc,
      AcceptedFrom]
    constructor
    · rintro ⟨hhead, hroom, htail, rfl, hbound⟩
      refine ⟨⟨hhead, htail⟩, rfl, .inr ?_⟩
      have hkey := hhead.keyShort
      rcases hbound with rfl | hbound
      · simp only [List.flatMap_nil, List.append_nil, List.length_append]
        unfold maxTTLKeyBytes at hkey
        unfold maxTTLSidecarBytes at hroom ⊢
        omega
      · exact hbound
    · rintro ⟨⟨hhead, htail⟩, rfl, hbound⟩
      have hlength := hbound.resolve_left (List.cons_ne_nil _ _)
      refine ⟨hhead, ?_, htail, rfl, .inr hlength⟩
      simp only [List.length_append] at hlength
      omega

theorem encodeTTLRecords_ok {sha256 : List UInt8 → Digest} {descriptor : TtlDescriptor} :
    encodeTTLRecords sha256 records = .ok (payload, descriptor) ↔
      records.length ≤ maxScannedKeys ∧ AcceptedFrom none records ∧ payload = wire records ∧
        descriptor = ⟨payload.length, sha256 payload⟩ ∧
        (records = [] ∨ payload.length ≤ maxTTLSidecarBytes) := by
  unfold encodeTTLRecords wire
  simp only [bind_ok, throwIf_ok, writeRecords_ok, pure_ok, exists_const, Prod.mk.injEq, gt_iff_lt,
    Nat.not_lt, List.append_assoc]
  constructor
  · rintro ⟨hcount, p, ⟨hrecords, hp, hbound⟩, rfl, rfl⟩
    exact ⟨hcount, hrecords, hp, rfl, hbound⟩
  · rintro ⟨hcount, hrecords, hp, rfl, hbound⟩
    exact ⟨hcount, payload, ⟨hrecords, hp, hbound⟩, rfl, rfl⟩

theorem readDigest_eq_some {digest : Digest} : readDigest reader = some (digest, rest) ↔ reader = digest.1 ++ rest := by
  unfold readDigest
  constructor
  · intro h
    split_ifs at h with hlong
    obtain ⟨rfl, rfl⟩ := Prod.mk.inj (Option.some.inj h)
    exact (List.take_append_drop 32 reader).symm
  · rintro rfl
    have hlong : 32 ≤ (digest.1 ++ rest).length := by
      rw [List.length_append, digest.2]
      omega
    rw [dif_pos hlong]
    simp only [List.take_left' digest.2, List.drop_left' digest.2]

theorem readByte_eq_some {b : UInt8} : readByte reader = some (b, rest) ↔ reader = [b] ++ rest := by
  cases reader <;> simp [readByte]

theorem readRecord_ok {record : TtlRecord} :
    readRecord previous reader = .ok (record, rest) ↔
      Acceptable previous record ∧ reader = entryBytes record ++ rest := by
  unfold readRecord entryBytes
  simp only [bind_ok, throwIf_ok, orThrow_ok, pure_ok, exists_const, Prod.exists, readFull_eq_some,
    readDigest_eq_some, readByte_eq_some, Prod.mk.injEq, not_or, not_exists, not_and, not_not, Std.not_lt,
    gt_iff_lt, Std.not_le]
  constructor
  · rintro ⟨head, reader₁, ⟨hhead, rfl⟩, ⟨hne, hshort, -⟩, key, reader₂, ⟨hkey, rfl⟩, digest, reader₃, rfl,
      hdigest, kind, reader₄, rfl, tail, reader₅, ⟨htail, rfl⟩, ⟨hkind, hpersistent, hexpiring, hordered⟩,
      rfl, rfl⟩
    refine ⟨⟨?_, ?_, hordered, hdigest, hkind, hpersistent, hexpiring⟩, ?_⟩
    · rw [hkey]
      exact hne
    · rw [hkey]
      exact hshort
    · have hlength : bigEndian 4 key.length = head := by rw [hkey, ← hhead, bigEndian_ofBigEndian]
      have hrange : ofBigEndian tail < 256 ^ 8 := htail ▸ ofBigEndian_lt tail
      have hword : (UInt64.ofNat (ofBigEndian tail)).toNat = ofBigEndian tail :=
        UInt64.toNat_ofNat_of_lt' (Nat.lt_of_lt_of_eq hrange (by decide))
      have hdeadline : bigEndian 8 (UInt64.ofNat (ofBigEndian tail)).toInt64.toUInt64.toNat = tail := by
        rw [UInt64.toUInt64_toInt64, hword, ← htail, bigEndian_ofBigEndian]
      simp only [hlength, hdeadline, List.append_assoc]
  · rintro ⟨h, rfl⟩
    have hsmall : record.key.length < 256 ^ 4 := Nat.lt_of_le_of_lt h.keyShort (by decide)
    have hword : record.deadline.toUInt64.toNat < 256 ^ 8 := record.deadline.toUInt64.toNat_lt
    have hkey := ofBigEndian_bigEndian hsmall
    have hdeadline : (UInt64.ofNat (ofBigEndian (bigEndian 8 record.deadline.toUInt64.toNat))).toInt64 =
        record.deadline := by
      rw [ofBigEndian_bigEndian hword, UInt64.ofNat_toNat, Int64.toInt64_toUInt64]
    refine ⟨_, _, ⟨length_bigEndian 4 _, by simp only [List.append_assoc]⟩, ⟨?_, ?_, ?_⟩, record.key, _,
      ⟨hkey.symm, rfl⟩, record.valueSHA, _, rfl, h.digest, record.kind, _, rfl,
      bigEndian 8 record.deadline.toUInt64.toNat, rest, ⟨length_bigEndian 8 _, rfl⟩, ⟨h.kind, ?_, ?_, h.ordered⟩, ?_, rfl⟩
    · rw [hkey]
      exact h.keyNonempty
    · rw [hkey]
      exact h.keyShort
    · rw [hkey, List.length_append]
      exact Nat.le_add_right _ _
    · rw [hdeadline]
      exact h.persistent
    · rw [hdeadline]
      exact h.expiring
    · rw [hdeadline]

theorem readRecords_ok {count : Nat} : readRecords count previous reader = .ok (records, rest) ↔
      records.length = count ∧ AcceptedFrom previous records ∧
        reader = records.flatMap entryBytes ++ rest := by
  induction count generalizing previous reader records rest with
  | zero =>
    simp only [readRecords, Except.ok.injEq, Prod.mk.injEq]
    constructor
    · rintro ⟨rfl, rfl⟩
      exact ⟨rfl, trivial, rfl⟩
    · rintro ⟨hempty, -, rfl⟩
      obtain rfl := List.length_eq_zero_iff.1 hempty
      exact ⟨rfl, rfl⟩
  | succ count ih =>
    simp only [readRecords, bind_ok, pure_ok, Prod.exists, readRecord_ok, ih, Prod.mk.injEq]
    constructor
    · rintro ⟨record, reader', ⟨hrecord, rfl⟩, tail, rest', ⟨hlength, htail, rfl⟩, rfl, rfl⟩
      exact ⟨congrArg (· + 1) hlength, ⟨hrecord, htail⟩, by rw [List.flatMap_cons, List.append_assoc]⟩
    · rintro ⟨hlength, hrecords, rfl⟩
      obtain ⟨record, tail, rfl⟩ := List.exists_cons_of_length_eq_add_one hlength
      refine ⟨record, tail.flatMap entryBytes ++ rest, ⟨hrecords.1, ?_⟩, tail, rest,
        ⟨Nat.succ.inj hlength, hrecords.2, rfl⟩, rfl, rfl⟩
      rw [List.flatMap_cons, List.append_assoc]

theorem parseTTLRecords_ok :
    parseTTLRecords payload = .ok records ↔
      records.length ≤ maxScannedKeys ∧ AcceptedFrom none records ∧ payload = wire records := by
  unfold parseTTLRecords wire
  simp only [bind_ok, throwIf_ok, orThrow_ok, pure_ok, exists_const, Prod.exists, readFull_eq_some,
    readRecords_ok, not_not, gt_iff_lt, Nat.not_lt, List.length_eq_zero_iff]
  constructor
  · rintro ⟨magic, reader, ⟨-, rfl⟩, rfl, word, reader', ⟨hword, rfl⟩, hcount, records', rest,
      ⟨hlength, hrecords, rfl⟩, rfl, rfl⟩
    have hbytes : bigEndian 4 records'.length = word := by rw [hlength, ← hword, bigEndian_ofBigEndian]
    rw [hbytes, List.append_nil]
    exact ⟨hlength ▸ hcount, hrecords, rfl⟩
  · rintro ⟨hcount, hrecords, rfl⟩
    have hword : ofBigEndian (bigEndian 4 records.length) = records.length :=
      ofBigEndian_bigEndian (Nat.lt_of_le_of_lt hcount (by decide))
    refine ⟨_, _, ⟨rfl, rfl⟩, rfl, _, _, ⟨length_bigEndian 4 _, rfl⟩, ?_, records, [],
      ⟨hword.symm, hrecords, (List.append_nil _).symm⟩, rfl, rfl⟩
    rw [hword]
    exact hcount

/-! ### Well-formed lists -/

structure WellFormed (records : List TtlRecord) : Prop where
  increasing : records.Pairwise fun a b => a.key < b.key
  keys : ∀ r ∈ records, r.key ≠ [] ∧ r.key.length ≤ maxTTLKeyBytes
  digests : ∀ r ∈ records, r.valueSHA ≠ zeroDigest
  deadlines : ∀ r ∈ records, (r.kind = ttlPersistent ∧ r.deadline = 0) ∨
    (r.kind = ttlExpiring ∧ 0 < r.deadline)

theorem Acceptable.deadline {r : TtlRecord} (h : Acceptable previous r) :
    (r.kind = ttlPersistent ∧ r.deadline = 0) ∨ (r.kind = ttlExpiring ∧ 0 < r.deadline) := by
  have hle : r.kind.toNat ≤ 1 := h.kind
  rcases Nat.le_one_iff_eq_zero_or_eq_one.1 hle with hkind | hkind
  · have hzero : r.kind = ttlPersistent := UInt8.toNat_inj.1 hkind
    exact .inl ⟨hzero, h.persistent hzero⟩
  · have hone : r.kind = ttlExpiring := UInt8.toNat_inj.1 hkind
    exact .inr ⟨hone, h.expiring hone⟩

/-- By induction on the list; each key is after the one before it, and so after all before it. -/
theorem AcceptedFrom.wellFormed (h : AcceptedFrom previous records) :
    WellFormed records ∧ ∀ p ∈ previous, ∀ r ∈ records, p.key < r.key := by
  induction records generalizing previous with
  | nil => exact ⟨⟨.nil, nofun, nofun, nofun⟩, fun _ _ => nofun⟩
  | cons record records ih =>
    obtain ⟨hhead, htail⟩ := h
    obtain ⟨hrest, hafter⟩ := ih htail
    refine ⟨⟨.cons (hafter record rfl) hrest.increasing, ?_, ?_, ?_⟩, ?_⟩
    · refine List.forall_mem_cons.2 ⟨⟨?_, hhead.keyShort⟩, hrest.keys⟩
      exact fun hnil => hhead.keyNonempty (List.length_eq_zero_iff.2 hnil)
    · exact List.forall_mem_cons.2 ⟨hhead.digest, hrest.digests⟩
    · exact List.forall_mem_cons.2 ⟨hhead.deadline, hrest.deadlines⟩
    · intro p hp
      have hfirst := hhead.ordered p hp
      exact List.forall_mem_cons.2 ⟨hfirst, fun r hr => Std.lt_trans hfirst (hafter record rfl r hr)⟩

/-- **The sidecar codec.**  Reading what was written gives the records back, writing what was read
gives the bytes back, and every list that either accepts is well formed. -/
theorem ttl_codec (sha256 : List UInt8 → Digest) (records : List TtlRecord) (payload : List UInt8) :
    (∀ descriptor, encodeTTLRecords sha256 records = .ok (payload, descriptor) →
      parseTTLRecords payload = .ok records ∧ WellFormed records) ∧
    (parseTTLRecords payload = .ok records → WellFormed records ∧
      (payload.length ≤ maxTTLSidecarBytes → ∃ descriptor,
        encodeTTLRecords sha256 records = .ok (payload, descriptor))) := by
  constructor
  · intro descriptor hencode
    obtain ⟨hcount, hrecords, hpayload, -, -⟩ := encodeTTLRecords_ok.1 hencode
    exact ⟨parseTTLRecords_ok.2 ⟨hcount, hrecords, hpayload⟩, hrecords.wellFormed.1⟩
  · intro hparse
    obtain ⟨hcount, hrecords, hpayload⟩ := parseTTLRecords_ok.1 hparse
    refine ⟨hrecords.wellFormed.1, fun hbound => ⟨⟨payload.length, sha256 payload⟩, ?_⟩⟩
    exact encodeTTLRecords_ok.2 ⟨hcount, hrecords, hpayload, rfl, .inr hbound⟩

end Reading

namespace Sidecar

def digest : Digest := repeatedDigest 7

def records : List TtlRecord := [⟨[97], digest, ttlPersistent, 0⟩, ⟨[97, 98], digest, ttlExpiring, 1700⟩]

end Sidecar

/-- Two records, one of them expiring, written and read. -/
theorem ttl_codec_two_records :
    parseTTLRecords (wire Sidecar.records) = .ok Sidecar.records ∧ WellFormed Sidecar.records := by
  have hencode : encodeTTLRecords (fun _ => Sidecar.digest) Sidecar.records =
      .ok (wire Sidecar.records, ⟨(wire Sidecar.records).length, Sidecar.digest⟩) := by decide +kernel
  exact (ttl_codec _ Sidecar.records (wire Sidecar.records)).1 _ hencode

end RaibitServer.RecoveryCache
