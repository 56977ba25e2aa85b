import RaibitServer.Lib.Bytes
import RaibitServer.Lib.Lines
import RaibitServer.Lib.Reader

/-!
# RecoveryCache.Resp — replies of a Redis server

`readReply` of `resp.go`.  A reply is a line with a mark for its kind; a bulk string follows its length, an array its
elements.  The reader is a `bufio.Reader` of the default size: a line that does not fit its buffer is refused.

Replies within the limits are read back from their encodings, whatever bytes are in them and whatever follows
(`reads_encode`), and streams that end inside one are refused.
-/

namespace RaibitServer.RecoveryCache.Resp

open Lib Lib.Lines Lib.Reader

abbrev Data := List UInt8

/-- A bulk string without `data` is null. -/
inductive Reply
  | simple (data : Data)
  | integer (value : Int)
  | bulk (data : Option Data)
  | array (items : List Reply)

/-- `maxRESPBytes`. -/
def maxRESPBytes : Nat := 16777216

/-- The buffer of `bufio.NewReader`. -/
def bufferBytes : Nat := 4096

def cr : UInt8 := 13

def lf : UInt8 := 10

/-! ### Reading -/

/-- `ReadSlice` gives the bytes up to the next newline, if they fit the buffer. -/
def readLine (max : Nat) : Reader UInt8 Data := fun stream =>
  match stream.dropWhile (· ≠ lf) with
  | [] => none
  | _ :: rest =>
    let front := stream.takeWhile (· ≠ lf)
    if front.length + 1 ≤ bufferBytes ∧ front.length + 1 ≤ max ∧ front.getLast? = some cr then
      some (front.dropLast, rest)
    else none

/-- The bytes of a bulk string, with the line break behind them. -/
def readData (length : Nat) : Reader UInt8 Reply :=
  andThen (Bytes.readFull (length + 2)) fun data =>
    lift (if data.drop length = [cr, lf] then some (.bulk (some (data.take length))) else none)

def readBulk (lengthLine : Data) (max : Nat) : Reader UInt8 Reply :=
  andThen (lift (parseInt 64 (ofBytes lengthLine))) fun length =>
    if length < -1 ∨ (max : Int) < length then lift none
    else if length = -1 then lift (some (.bulk none))
    else readData length.toNat

def readArray (read : Reader UInt8 Reply) (lengthLine : Data) : Reader UInt8 Reply :=
  andThen (lift (parseInt 32 (ofBytes lengthLine))) fun length =>
    if length < 0 ∨ 4096 < length then lift none
    else andThen (read.times length.toNat) fun items => lift (some (.array items))

/-- The `switch` over the mark of a line; `read` reads the elements of an array. -/
def readKind (max : Nat) (read : Reader UInt8 Reply) (kind : UInt8) (line : Data) : Reader UInt8 Reply :=
  if kind = 43 then lift (some (.simple line)) -- `+`
  else if kind = 45 then lift none -- `-`
  else if kind = 58 then lift ((parseInt 64 (ofBytes line)).map .integer) -- `:`
  else if kind = 36 then readBulk line max -- `$`
  else if kind = 42 then readArray read line -- `*`
  else lift none

/-- The source counts `depth` up to 8; `levels` is what is left of `9 - depth`. -/
def readReplyDepth (max : Nat) : Nat → Reader UInt8 Reply
  | 0 => lift none
  | levels + 1 =>
    if max < 1 then lift none
    else next.andThen fun kind => (readLine max).andThen fun line => readKind max (readReplyDepth max levels) kind line

def readReply (max : Nat) : Reader UInt8 Reply := readReplyDepth max 9

/-! ### The standard encoding -/

def line (kind : Char) (text : Data) : Data := toBytes [kind] ++ text ++ [cr, lf]

mutual

def encode : Reply → Data
  | .simple data => line '+' data
  | .integer value => line ':' (toBytes (formatInt value))
  | .bulk none => line '$' (toBytes (formatInt (-1)))
  | .bulk (some data) => line '$' (toBytes (formatInt data.length)) ++ (data ++ [cr, lf])
  | .array items => line '*' (toBytes (formatInt items.length)) ++ encodeItems items

def encodeItems : List Reply → Data
  | [] => []
  | item :: items => encode item ++ encodeItems items

end

/-- The replies within the limits, with arrays nested at most `depth` deep. -/
inductive Sendable : Nat → Reply → Prop
  | simple {depth : Nat} {data : Data} (hline : ∀ b ∈ data, b ≠ cr ∧ b ≠ lf) (hlength : data.length ≤ 4000) :
      Sendable depth (.simple data)
  | integer {depth : Nat} {value : Int} (hlow : -2 ^ 63 ≤ value) (hhigh : value < 2 ^ 63) :
      Sendable depth (.integer value)
  | null {depth : Nat} : Sendable depth (.bulk none)
  | bulk {depth : Nat} {data : Data} (hlength : data.length ≤ maxRESPBytes) : Sendable depth (.bulk (some data))
  | array {depth : Nat} {items : List Reply} (hlength : items.length ≤ 4096)
      (hitems : ∀ item ∈ items, Sendable depth item) : Sendable (depth + 1) (.array items)

theorem encodeItems_eq (items : List Reply) : encodeItems items = items.flatMap encode := by
  induction items with
  | nil => rfl
  | cons item items ih => rw [encodeItems, ih, List.flatMap_cons]

/-! ### Lines and lengths -/

/-- What is before a newline, and what is behind it. -/
theorem cut_newline {stream front rest : Data} (h : ∀ b ∈ front, b ≠ lf) (hstream : stream = front ++ lf :: rest) :
    stream.takeWhile (· ≠ lf) = front ∧ stream.dropWhile (· ≠ lf) = lf :: rest := by
  have hfront : ∀ b ∈ front, (decide (b ≠ lf)) = true := fun b hb => decide_eq_true (h b hb)
  rw [hstream, List.takeWhile_append_of_pos hfront, List.dropWhile_append_of_pos hfront,
    List.takeWhile_cons_of_neg (by simp), List.dropWhile_cons_of_neg (by simp), List.append_nil]
  exact ⟨rfl, rfl⟩

/-- A line is read up to its line break, if that is the first newline and the line fits. -/
theorem readLine_eq_some {max : Nat} {stream text rest : Data} :
    readLine max stream = some (text, rest) ↔ stream = text ++ [cr, lf] ++ rest ∧ (∀ b ∈ text, b ≠ lf) ∧
      text.length + 2 ≤ bufferBytes ∧ text.length + 2 ≤ max := by
  constructor
  · intro h
    unfold readLine at h
    have hsplit := @List.takeWhile_append_dropWhile _ (fun b : UInt8 => decide (b ≠ lf)) stream
    have hfront : ∀ b ∈ stream.takeWhile (· ≠ lf), b ≠ lf := fun b hb =>
      of_decide_eq_true (List.all_eq_true.1 List.all_takeWhile b hb)
    have hhead := List.head?_dropWhile_not (fun b : UInt8 => decide (b ≠ lf)) stream
    cases hdrop : stream.dropWhile (· ≠ lf) with
    | nil => rw [hdrop] at h; cases h
    | cons b tail =>
      rw [hdrop] at h hsplit hhead
      obtain rfl : b = lf := by simpa using hhead
      dsimp only at h
      split at h
      · next hfits =>
        obtain ⟨rfl, rfl⟩ := Prod.mk.inj (Option.some.inj h)
        obtain ⟨text, hlast⟩ := List.getLast?_eq_some_iff.1 hfits.2.2
        rw [hlast] at hfits hsplit hfront ⊢
        rw [List.dropLast_concat]
        rw [List.length_append, List.length_singleton] at hfits
        exact ⟨by rw [← hsplit]; simp, fun b hb => hfront b (List.mem_append_left _ hb), hfits.1, hfits.2.1⟩
      · cases h
  · rintro ⟨rfl, htext, hbuffer, hmax⟩
    have hfront : ∀ b ∈ text ++ [cr], b ≠ lf := by
      intro b hb
      rcases List.mem_append.1 hb with hb | hb
      · exact htext b hb
      · rw [List.mem_singleton.1 hb]
        decide
    obtain ⟨htake, hdrop⟩ := cut_newline hfront (by simp : text ++ [cr, lf] ++ rest = (text ++ [cr]) ++ lf :: rest)
    have hfits : (text ++ [cr]).length + 1 ≤ bufferBytes ∧ (text ++ [cr]).length + 1 ≤ max ∧
        (text ++ [cr]).getLast? = some cr := by
      rw [List.length_append, List.length_singleton]
      exact ⟨hbuffer, hmax, List.getLast?_concat⟩
    unfold readLine
    rw [hdrop, htake]
    dsimp only
    rw [if_pos hfits, List.dropLast_concat]

theorem extends_readLine (max : Nat) : Extends (readLine max) := by
  intro stream text rest h more
  obtain ⟨rfl, htext, hbuffer, hmax⟩ := readLine_eq_some.1 h
  exact readLine_eq_some.2 ⟨List.append_assoc _ _ _, htext, hbuffer, hmax⟩

theorem extends_readData (length : Nat) : Extends (readData length) := by
  refine Extends.andThen (fun stream data rest h more => ?_) fun _ => extends_lift _
  obtain ⟨hlength, rfl⟩ := Bytes.readFull_eq_some.1 h
  exact Bytes.readFull_eq_some.2 ⟨hlength, List.append_assoc _ _ _⟩

theorem reads_readData (data : Data) : Reads (readData data.length) (data ++ [cr, lf]) (.bulk (some data)) := by
  intro rest
  have hread : Bytes.readFull (data.length + 2) (data ++ [cr, lf] ++ rest) = some (data ++ [cr, lf], rest) :=
    Bytes.readFull_eq_some.2 ⟨by simp, rfl⟩
  rw [readData, andThen, hread, Option.bind_some]
  simp [lift]

/-- **What a reader of replies gives does not change when more follows.** -/
theorem extends_readReplyDepth (max levels : Nat) : Extends (readReplyDepth max levels) := by
  induction levels with
  | zero => exact extends_lift _
  | succ levels ih =>
    rw [readReplyDepth]
    split
    · exact extends_lift _
    refine extends_next.andThen fun kind => (extends_readLine max).andThen fun line => ?_
    unfold readKind readBulk readArray
    split_ifs
    · exact extends_lift _
    · exact extends_lift _
    · exact extends_lift _
    · refine (extends_lift _).andThen fun length => ?_
      split_ifs
      · exact extends_lift _
      · exact extends_lift _
      · exact extends_readData _
    · refine (extends_lift _).andThen fun length => ?_
      split_ifs
      · exact extends_lift _
      · exact (ih.times _).andThen fun _ => extends_lift _
    · exact extends_lift _

/-! ### Encodings are read back -/

/-- A line of text, read up to its line break. -/
theorem reads_line {max : Nat} {text : Data} (htext : ∀ b ∈ text, b ≠ lf) (hlength : text.length ≤ 4000)
    (hmax : 4096 ≤ max) : Reads (readLine max) (text ++ [cr, lf]) text := fun rest =>
  readLine_eq_some.2 ⟨rfl, htext, by unfold bufferBytes; omega, by omega⟩

/-- A number is a line that reads as the number. -/
theorem reads_number {max : Nat} (hmax : 4096 ≤ max) {i : Int} (hlow : -2 ^ 63 ≤ i) (hhigh : i < 2 ^ 63) :
    Reads (readLine max) (toBytes (formatInt i) ++ [cr, lf]) (toBytes (formatInt i)) ∧
      ofBytes (toBytes (formatInt i)) = formatInt i := by
  have hplain : ∀ c ∈ formatInt i, 33 ≤ c.toNat ∧ c.toNat ≤ 126 := fun c hc => isGraphic_iff.1 (plain_formatInt i c hc)
  refine ⟨reads_line (fun b hb => ?_) ?_ hmax, ofBytes_toBytes fun c hc => ?_⟩
  · obtain ⟨c, hc, rfl⟩ := List.mem_map.1 hb
    intro hnewline
    have hcode := congrArg UInt8.toNat hnewline
    have hrange := hplain c hc
    rw [UInt8.toNat_ofNat_of_lt' (by show c.toNat < 256; omega)] at hcode
    have : lf.toNat = 10 := rfl
    omega
  · rw [toBytes, List.length_map]
    exact Nat.le_trans (length_formatInt_le hlow hhigh) (by decide)
  · have := hplain c hc
    omega

/-- A reply is read as its mark, its line and what the mark says. -/
theorem reads_reply {levels : Nat} {kind : Char} {text code : Data} {v : Reply}
    (hline : Reads (readLine maxRESPBytes) (text ++ [cr, lf]) text)
    (hbody : Reads (readKind maxRESPBytes (readReplyDepth maxRESPBytes levels) (UInt8.ofNat kind.toNat) text) code v) :
    Reads (readReplyDepth maxRESPBytes (levels + 1)) (line kind text ++ code) v := by
  have hall := (reads_next (UInt8.ofNat kind.toNat)).andThen
    (f := fun kind => (readLine maxRESPBytes).andThen fun line =>
      readKind maxRESPBytes (readReplyDepth maxRESPBytes levels) kind line) (hline.andThen hbody)
  rw [readReplyDepth, if_neg (by decide)]
  rwa [← List.append_assoc, ← List.append_assoc] at hall

/-- **Replies within the limits are read back**, at any depth that leaves enough levels. -/
theorem reads_encode {depth levels : Nat} {v : Reply} (h : Sendable depth v) (hlevels : depth < levels) :
    Reads (readReplyDepth maxRESPBytes levels) (encode v) v := by
  induction levels generalizing depth v with
  | zero => exact absurd hlevels (Nat.not_lt_zero _)
  | succ levels ih =>
    have hmax : 4096 ≤ maxRESPBytes := by decide
    cases h with
    | @simple _ data hline hlength =>
      have hread := reads_line (fun b hb => (hline b hb).2) hlength hmax
      rw [encode, ← List.append_nil (line '+' data)]
      exact reads_reply hread (reads_lift _)
    | @integer _ value hlow hhigh =>
      obtain ⟨hread, htext⟩ := reads_number hmax hlow hhigh
      rw [encode, ← List.append_nil (line ':' _)]
      refine reads_reply hread ?_
      show Reads (lift ((parseInt 64 (ofBytes (toBytes (formatInt value)))).map Reply.integer)) [] _
      rw [htext, parseInt_formatInt hlow hhigh]
      exact reads_lift _
    | null =>
      obtain ⟨hread, htext⟩ := @reads_number maxRESPBytes hmax (-1) (by decide) (by decide)
      rw [encode, ← List.append_nil (line '$' _)]
      refine reads_reply hread ?_
      show Reads (readBulk (toBytes (formatInt (-1))) maxRESPBytes) [] _
      unfold readBulk
      rw [htext]
      exact fun rest => rfl
    | @bulk _ data hlength =>
      have hlow : -2 ^ 63 ≤ (data.length : Int) := by omega
      have hhigh : (data.length : Int) < 2 ^ 63 := by
        unfold maxRESPBytes at hlength
        omega
      obtain ⟨hread, htext⟩ := reads_number hmax hlow hhigh
      rw [encode]
      refine reads_reply hread ?_
      show Reads (readBulk (toBytes (formatInt data.length)) maxRESPBytes) _ _
      unfold readBulk
      rw [htext, @parseInt_formatInt 64 data.length hlow hhigh]
      refine (reads_lift (data.length : Int)).andThen ?_
      rw [if_neg (by omega), if_neg (by omega), Int.toNat_natCast]
      exact reads_readData data
    | @array depth items hlength hitems =>
      have hlow : -2 ^ 63 ≤ (items.length : Int) := by omega
      have hhigh : (items.length : Int) < 2 ^ 63 := by omega
      obtain ⟨hread, htext⟩ := reads_number hmax hlow hhigh
      rw [encode]
      refine reads_reply hread ?_
      show Reads (readArray (readReplyDepth maxRESPBytes levels) (toBytes (formatInt items.length))) _ _
      unfold readArray
      rw [htext, @parseInt_formatInt 32 items.length (by omega) (by omega), encodeItems_eq]
      refine (reads_lift (items.length : Int)).andThen ?_
      rw [if_neg (by omega), Int.toNat_natCast]
      have hread : ∀ item ∈ items, Reads (readReplyDepth maxRESPBytes levels) (encode item) item := fun item hitem =>
        ih (hitems item hitem) (Nat.lt_of_succ_lt_succ hlevels)
      have hall := (reads_times hread).andThen (f := fun items => lift (some (Reply.array items))) (reads_lift _)
      rwa [List.append_nil] at hall

/-- **RESP replies are read exactly**: from the encoding of a reply and whatever follows, `readReply` gives the reply
and leaves what follows; on a stream that ends before the encoding does, it fails. -/
theorem resp_replies_read_exactly {v : Reply} (h : Sendable 8 v) :
    (∀ rest, readReply maxRESPBytes (encode v ++ rest) = some (v, rest)) ∧
      ∀ part, part <+: encode v → part ≠ encode v → readReply maxRESPBytes part = none := by
  have hreads : Reads (readReply maxRESPBytes) (encode v) v := reads_encode h (by decide)
  exact ⟨hreads, fun part hpart hne => hreads.fails (extends_readReplyDepth maxRESPBytes 9) hpart hne⟩

/-- An array of a bulk string with a line break in it, a null and a number. -/
theorem resp_replies_read_exactly_array :
    readReply maxRESPBytes (encode (.array [.bulk (some [13, 10, 43]), .bulk none, .integer (-7)]) ++ [58]) =
      some (.array [.bulk (some [13, 10, 43]), .bulk none, .integer (-7)], [58]) := by
  refine (resp_replies_read_exactly (.array (by decide) fun item hitem => ?_)).1 [58]
  rcases List.mem_cons.1 hitem with rfl | hitem
  · exact .bulk (by decide)
  rcases List.mem_cons.1 hitem with rfl | hitem
  · exact .null
  · rw [List.mem_singleton.1 hitem]
    exact .integer (by decide) (by decide)

end RaibitServer.RecoveryCache.Resp
