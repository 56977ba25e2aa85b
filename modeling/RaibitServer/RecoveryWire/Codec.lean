import RaibitServer.Lib.Base64
import RaibitServer.Lib.Guard
import RaibitServer.Lib.Hex
import RaibitServer.Lib.Lines

/-!
# RecoveryWire.Codec — the recovery envelope (`internal/recoverywire`)

An envelope is a header line, one `D` line for each piece of the payload and one `E` line with the
counts and the hash.  The encoder reads the payload in pieces of at most `payloadChunkSize` bytes and
writes a frame for each; the decoder reads line by line and writes the bytes of each frame before it
looks at the next.  Both return what they have written besides their result.

Go's strings are bytes.  The wire is a list of bytes here too; its text is read one character for a
byte.  The hash is a parameter.  Writes succeed and nothing is cancelled.  The counts of a receipt never
pass the limits, which are 64-bit words, so they are natural numbers.
-/

namespace RaibitServer.RecoveryWire

open Lib Lib.Lines

/-! ### `types.go` -/

/-- A SHA-256 value, `[32]byte`. -/
structure Digest where
  bytes : List UInt8
  length : bytes.length = 32
  deriving DecidableEq

def Digest.zero : Digest := ⟨List.replicate 32 0, List.length_replicate⟩

def payloadChunkSize : Nat := 3072

def maxLineLength : Nat := 8192

def maxSequenceFrames : UInt64 := 9999999999

inductive WireError
  | ErrInvalidMetadata
  | ErrInvalidEnvelope (stage : String)
  | ErrLimitExceeded
  | ErrIOFailure (stage : String)
  deriving DecidableEq

def invalid (stage : String) : WireError := .ErrInvalidEnvelope stage

def ioError (stage : String) : WireError := .ErrIOFailure stage

/-- `Engine` is a string with six named values. -/
inductive Engine
  | PostgreSQL | MySQL | MariaDB | MongoDB | Redis | Valkey
  | other (name : String)
  deriving DecidableEq

def Engine.text : Engine → String
  | .PostgreSQL => "postgresql"
  | .MySQL => "mysql"
  | .MariaDB => "mariadb"
  | .MongoDB => "mongodb"
  | .Redis => "redis"
  | .Valkey => "valkey"
  | .other name => name

/-- `Format` is a string with four named values. -/
inductive Format
  | PGCustom | SQL | MongoArchiveGzip | RDB
  | other (name : String)
  deriving DecidableEq

def Format.text : Format → String
  | .PGCustom => "pg-custom"
  | .SQL => "sql"
  | .MongoArchiveGzip => "mongo-archive-gzip"
  | .RDB => "rdb"
  | .other name => name

/-- The value a text names, or the value that is only that text. -/
def named {α : Type} (values : List α) (text : α → String) (other : String → α) (t : String) : α :=
  (values.find? fun a => text a = t).getD (other t)

def Engine.all : List Engine := [.PostgreSQL, .MySQL, .MariaDB, .MongoDB, .Redis, .Valkey]

def Format.all : List Format := [.PGCustom, .SQL, .MongoArchiveGzip, .RDB]

/-- The conversion `Engine(t)`. -/
def Engine.ofText : String → Engine := named Engine.all Engine.text .other

/-- The conversion `Format(t)`. -/
def Format.ofText : String → Format := named Format.all Format.text .other

def supports (e : Engine) (f : Format) : Bool :=
  match e with
  | .PostgreSQL => f = .PGCustom
  | .MySQL | .MariaDB => f = .SQL
  | .MongoDB => f = .MongoArchiveGzip
  | .Redis | .Valkey => f = .RDB
  | .other _ => false

structure Baseline where
  schemaSHA256 : Digest
  dataSHA256 : Digest
  recordCount : UInt64
  deriving DecidableEq

def Baseline.valid (b : Baseline) : Bool := b.schemaSHA256 ≠ Digest.zero && b.dataSHA256 ≠ Digest.zero

def newBaseline (schemaSHA256 dataSHA256 : Digest) (recordCount : UInt64) : Except WireError Baseline := do
  let baseline : Baseline := { schemaSHA256, dataSHA256, recordCount }
  throwIf (¬ baseline.valid) .ErrInvalidMetadata
  return baseline

/-- `hasBaseline` is that there is one. -/
structure Metadata where
  engine : Engine
  version : String
  format : Format
  baseline : Option Baseline
  deriving DecidableEq

def versionChar : Char → Bool := Text.orOneOf Char.isAlphanum ['.', '_', '-']

def versionPattern : String → Bool := Text.headTail Char.isAlphanum versionChar 31

def newMetadata (engine : Engine) (version : String) (format : Format) : Except WireError Metadata := do
  throwIf (¬ versionPattern version ∨ ¬ supports engine format) .ErrInvalidMetadata
  return { engine, version, format, baseline := none }

def Metadata.withBaseline (m : Metadata) (baseline : Baseline) : Except WireError Metadata := do
  throwIf (¬ baseline.valid) .ErrInvalidMetadata
  return { m with baseline := some baseline }

def Metadata.valid (m : Metadata) : Bool :=
  (newMetadata m.engine m.version m.format).isOk && m.baseline.all Baseline.valid

structure Receipt where
  frames : Nat
  plaintextBytes : Nat
  sha256 : Digest
  deriving DecidableEq

structure Decoded where
  metadata : Metadata
  receipt : Receipt
  deriving DecidableEq

structure Limits where
  maxBytes : UInt64
  maxFrames : UInt64
  deriving DecidableEq

def newLimits (maxBytes maxFrames : UInt64) : Except WireError Limits := do
  throwIf (maxBytes = 0 ∨ maxFrames = 0 ∨ maxFrames > maxSequenceFrames) .ErrLimitExceeded
  return { maxBytes, maxFrames }

/-! ### Lines -/

def magic : List Char := "RAIBIT-RECOVERY/1".toList

def baselineFields : Option Baseline → List (List Char)
  | none => ["baseline=none".toList]
  | some b =>
    ["schema-sha256=".toList ++ Hex.encode b.schemaSHA256.bytes,
      "data-sha256=".toList ++ Hex.encode b.dataSHA256.bytes,
      "records=".toList ++ formatUint b.recordCount.toNat]

def headerLine (m : Metadata) : List Char :=
  spaced (magic :: m.engine.text.toList :: m.version.toList :: m.format.text.toList ::
    baselineFields m.baseline)

def dataLine (sequence : Nat) (data : List UInt8) : List Char :=
  spaced [['D'], zeroPad 10 sequence, Base64.encode data]

def terminalLine (r : Receipt) : List Char :=
  spaced [['E'], formatUint r.frames, formatUint r.plaintextBytes, Hex.encode r.sha256.bytes]

/-! ### `encoder.go` -/

/-- What `Read` returns besides the bytes. -/
inductive ReadError
  | EOF | other
  deriving DecidableEq

/-- One `Read` into the buffer. -/
structure Read where
  data : List UInt8
  err : Option ReadError
  le : data.length ≤ payloadChunkSize

/-- The counts of the receipt and the bytes the digest has taken. -/
structure Progress where
  frames : Nat
  plaintextBytes : Nat
  plaintext : List UInt8
  deriving DecidableEq

def Progress.start : Progress := ⟨0, 0, []⟩

def Progress.push (s : Progress) (data : List UInt8) : Progress :=
  ⟨s.frames + 1, s.plaintextBytes + data.length, s.plaintext ++ data⟩

def Progress.receipt (sha256 : List UInt8 → Digest) (s : Progress) : Receipt :=
  ⟨s.frames, s.plaintextBytes, sha256 s.plaintext⟩

/-- The part of the loop under `n > 0`: the lines written and the counts after them. -/
def writeFrame (limits : Limits) (s : Progress) (data : List UInt8) :
    Except WireError (List (List Char) × Progress) :=
  if data = [] then .ok ([], s)
  else if s.frames ≥ limits.maxFrames.toNat ∨ s.plaintextBytes > limits.maxBytes.toNat ∨
      data.length > limits.maxBytes.toNat - s.plaintextBytes then .error .ErrLimitExceeded
  else .ok ([dataLine s.frames data], s.push data)

/-- The loop over the reads.  A reader that has nothing more to say answers `0, io.EOF`. -/
def encodeFrames (limits : Limits) : List Read → Progress → List (List Char) × Except WireError Progress
  | [], s => ([], .ok s)
  | read :: reads, s =>
    match writeFrame limits s read.data with
    | .error e => ([], .error e)
    | .ok (written, s) =>
      match read.err with
      | some .EOF => (written, .ok s)
      | some .other => (written, .error (ioError "read payload"))
      | none =>
        if read.data = [] then (written, .error (ioError "read payload"))
        else
          let rest := encodeFrames limits reads s
          (written ++ rest.1, rest.2)

/-- `Encoder.Encode`: the bytes written and the receipt or the error. -/
def encode (sha256 : List UInt8 → Digest) (limits : Limits) (metadata : Metadata) (reads : List Read) :
    List UInt8 × Except WireError Receipt :=
  if limits.maxBytes = 0 ∨ limits.maxFrames = 0 then ([], .error .ErrLimitExceeded)
  else if ¬ metadata.valid then ([], .error .ErrInvalidMetadata)
  else
    let frames := encodeFrames limits reads .start
    match frames.2 with
    | .error e => (toBytes (unlines (headerLine metadata :: frames.1)), .error e)
    | .ok s =>
      (toBytes (unlines (headerLine metadata :: (frames.1 ++ [terminalLine (s.receipt sha256)]))),
        .ok (s.receipt sha256))

/-! ### `decoder.go` -/

/-- `readLine` on the segment that is next, `rest` being what follows it: a segment with nothing behind
it has no newline. -/
def readLine (segment : List Char) (rest : List (List Char)) : Except WireError (List Char) := do
  throwIf ((if rest = [] then segment.length else segment.length + 1) > maxLineLength) .ErrLimitExceeded
  throwIf (rest = []) (invalid "truncated envelope")
  return segment

/-- `copy` into a zero array. -/
def copyDigest (bytes : List UInt8) : Digest :=
  ⟨(bytes ++ List.replicate 32 0).take 32, by simp⟩

def parseDigestField (field pre : List Char) : Except WireError Digest := do
  let value ← orThrow (cutPrefix pre field) (invalid "baseline digest")
  throwIf (value.length ≠ 64) (invalid "baseline digest")
  let decoded ← orThrow (Hex.decode value) (invalid "baseline digest")
  throwIf (Hex.encode decoded ≠ value) (invalid "baseline digest")
  return copyDigest decoded

/-- The three fields of a baseline. -/
def parseBaseline (metadata : Metadata) (schema data records : List Char) : Except WireError Metadata := do
  let schemaDigest ← parseDigestField schema "schema-sha256=".toList
  let dataDigest ← parseDigestField data "data-sha256=".toList
  let recordCountValue ← orThrow (cutPrefix "records=".toList records) (invalid "baseline record count")
  let recordCount ← orThrow (parseCanonicalUint recordCountValue) (invalid "baseline record count")
  let baseline ← (newBaseline schemaDigest dataDigest (UInt64.ofNat recordCount)).mapError
    fun _ => invalid "baseline"
  (metadata.withBaseline baseline).mapError fun _ => invalid "baseline"

/-- The fields after the format; `len(parts)` is four more than theirs. -/
def parseBaselineFields (metadata : Metadata) (fields : List (List Char)) : Except WireError Metadata :=
  if fields = ["baseline=none".toList] then .ok metadata
  else
    match fields with
    | [schema, data, records] => parseBaseline metadata schema data records
    | _ => .error (invalid "baseline fields")

def parseHeader (line : List Char) : Except WireError Metadata :=
  match splitFields line with
  | first :: engine :: version :: format :: field :: fields => do
    throwIf (first ≠ magic) (invalid "header")
    let metadata ← (newMetadata (Engine.ofText (String.ofList engine)) (String.ofList version)
      (Format.ofText (String.ofList format))).mapError fun _ => invalid "metadata"
    parseBaselineFields metadata (field :: fields)
  | _ => .error (invalid "header")

def parseTerminal (line : List Char) (receipt : Receipt) : Except WireError Unit :=
  match splitFields line with
  | [_, frames, plaintextBytes, hash] => do
    let frames ← orThrow (parseCanonicalUint frames) (invalid "terminal frame count")
    let plaintextBytes ← orThrow (parseCanonicalUint plaintextBytes) (invalid "terminal byte count")
    let wantHash ← orThrow (Hex.decode hash) (invalid "terminal hash")
    throwIf (wantHash.length ≠ 32 ∨ Hex.encode wantHash ≠ hash) (invalid "terminal hash")
    throwIf (frames ≠ receipt.frames ∨ plaintextBytes ≠ receipt.plaintextBytes ∨
      wantHash ≠ receipt.sha256.bytes) (invalid "terminal receipt")
  | _ => .error (invalid "terminal frame")

/-- Nothing is left after the newline of the terminal frame. -/
def requireEOF (rest : List (List Char)) : Except WireError Unit :=
  throwIf (rest ≠ [[]]) (invalid "trailing frame")

/-! ### `decode_state.go` -/

/-- The destination and the digest take the same bytes, `progress.plaintext`. -/
structure DecodeState where
  progress : Progress
  previousSize : Nat
  deriving DecidableEq

def newDecodeState : DecodeState := ⟨.start, payloadChunkSize⟩

/-- `base64.StdEncoding.EncodedLen`. -/
def encodedLen (n : Nat) : Nat := (n + 2) / 3 * 4

def consumeDataFrame (limits : Limits) (s : DecodeState) (line : List Char) :
    Except WireError DecodeState := do
  throwIf (s.previousSize ≠ payloadChunkSize) (invalid "data frame size")
  match splitFields line with
  | [_, number, encoded] => do
    throwIf (number.length ≠ 10 ∨ encoded = []) (invalid "data frame")
    let sequence ← orThrow (parseUint number) (invalid "data sequence")
    throwIf (zeroPad 10 sequence ≠ number ∨ sequence ≠ s.progress.frames) (invalid "data sequence")
    throwIf (s.progress.frames ≥ limits.maxFrames.toNat ∨
      encoded.length > encodedLen payloadChunkSize) .ErrLimitExceeded
    let data ← orThrow (Base64.decode encoded) (invalid "base64 payload")
    throwIf (data = [] ∨ Base64.encode data ≠ encoded) (invalid "base64 payload")
    throwIf (data.length > limits.maxBytes.toNat - s.progress.plaintextBytes) .ErrLimitExceeded
    return ⟨s.progress.push data, data.length⟩
  | _ => .error (invalid "data frame")

/-- The terminal frame and the end of the stream. -/
def finish (sha256 : List UInt8 → Digest) (metadata : Metadata) (s : DecodeState) (line : List Char)
    (rest : List (List Char)) : Except WireError Decoded := do
  parseTerminal line (s.progress.receipt sha256)
  requireEOF rest
  return ⟨metadata, s.progress.receipt sha256⟩

/-- The loop over the lines after the header: what the destination holds and the result. -/
def decodeFrames (sha256 : List UInt8 → Digest) (limits : Limits) (metadata : Metadata) :
    List (List Char) → DecodeState → List UInt8 × Except WireError Decoded
  | [], s => (s.progress.plaintext, .error (invalid "truncated envelope"))
  | segment :: rest, s =>
    match readLine segment rest with
    | .error e => (s.progress.plaintext, .error e)
    | .ok line =>
      if "D ".toList.isPrefixOf line then
        match consumeDataFrame limits s line with
        | .error e => (s.progress.plaintext, .error e)
        | .ok s => decodeFrames sha256 limits metadata rest s
      else if "E ".toList.isPrefixOf line then
        (s.progress.plaintext, finish sha256 metadata s line rest)
      else (s.progress.plaintext, .error (invalid "frame type"))

/-- `Decoder.Decode`: the bytes written to the destination and the result. -/
def decode (sha256 : List UInt8 → Digest) (limits : Limits) (wire : List UInt8) :
    List UInt8 × Except WireError Decoded :=
  if limits.maxBytes = 0 ∨ limits.maxFrames = 0 then ([], .error .ErrLimitExceeded)
  else
    match segments (ofBytes wire) with
    | [] => ([], .error (invalid "truncated envelope"))
    | segment :: rest =>
      match readLine segment rest >>= parseHeader with
      | .error e => ([], .error e)
      | .ok metadata => decodeFrames sha256 limits metadata rest newDecodeState

end RaibitServer.RecoveryWire
