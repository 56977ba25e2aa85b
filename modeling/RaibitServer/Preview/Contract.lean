import RaibitServer.Lib.Json
import RaibitServer.Lib.Regex
import RaibitServer.Lib.Time
import RaibitServer.Preview.Lineage

/-!
# Preview.Contract — which webhook events are valid

`parsePreviewWebhookPayload` of `preview-contract.ts`, with the checks it calls.  Every event that reaches
a lineage has passed it, so the texts of an event hold no NUL and the key that joins them with NULs tells
different events apart.
-/

namespace RaibitServer.Preview

open Lib Core

/-! ### Checks -/

def webhookKeys : List String :=
  ["deliveryId", "installationId", "repositoryId", "repository", "pullRequestNumber", "action", "headSha",
    "headRef", "baseRef", "beforeSha", "updatedAt"]

def exact (value : Json) (keys : List String) : Except Thrown JsonObject :=
  match value with
  | .obj members => if members.any (fun m => !keys.contains m.1) then .error invalid else .ok members
  | _ => .error invalid

/-- `text` of a member that may be missing or of another type. -/
def memberText (value : Option Json) (pattern : String → Bool) (limit : Nat) : Except Thrown String :=
  match value with
  | some (.str s) => Preview.text s pattern limit
  | _ => .error invalid

def maxSafeInteger : Nat := 9007199254740991

def positive (value : Option Json) : Except Thrown Nat :=
  match value with
  | some (.num n) => if 0 < n ∧ n ≤ maxSafeInteger then .ok n.toNat else .error invalid
  | _ => .error invalid

/-- `^[1-9][0-9]{0,15}$`. -/
def numericIdPattern (s : String) : Bool :=
  Text.headTail (fun c => c.isDigit && c != '0') Char.isDigit 15 s

def numericId (value : Option Json) : Except Thrown String := do
  let parsed ← memberText value numericIdPattern 128
  throwIf (maxSafeInteger < Text.decimal parsed) invalid
  return parsed

/-- `^[a-f0-9]{40}(?:[a-f0-9]{24})?$`. -/
def shaPattern (s : String) : Bool :=
  s.toList.all Text.lowerHex && (s.toList.length = 40 || s.toList.length = 64)

def isHex (c : Char) : Bool := Text.lowerHex c.toLower

/-- `^[a-f0-9]{8}-[a-f0-9]{4}-[1-8][a-f0-9]{3}-[89ab][a-f0-9]{3}-[a-f0-9]{12}$` in any case. -/
def uuidPattern (s : String) : Bool :=
  match s.toList.splitOn '-' with
  | [a, b, c, d, e] =>
    [a, b, c, d, e].map List.length = [8, 4, 4, 4, 12] && [a, b, c, d, e].all (fun part => part.all isHex) &&
      c.head?.any (fun x => ['1', '2', '3', '4', '5', '6', '7', '8'].contains x) &&
      d.head?.any (fun x => ['8', '9', 'a', 'b'].contains x.toLower)
  | _ => false

/-- `^[A-Za-z0-9](?:[A-Za-z0-9-]{0,38})\/[A-Za-z0-9_.-]{1,100}$`. -/
def repositoryPattern (s : String) : Bool :=
  match s.toList.splitOn '/' with
  | [owner, name] =>
    Text.headTail Char.isAlphanum (Text.orOneOf Char.isAlphanum ['-']) 38 (String.ofList owner) &&
      Text.bounded (Text.orOneOf Char.isAlphanum ['_', '.', '-']) 1 100 (String.ofList name)
  | _ => false

/-- `[^\s\x00-\x1f\x7f~^:?*\[\\]`. -/
def refChar (c : Char) : Bool :=
  !(Text.isJsSpace c || c.toNat < 32 || c.toNat = 127 || ['~', '^', ':', '?', '*', '[', '\\'].contains c)

def refPattern (s : String) : Bool := s ≠ "" && s.toList.all refChar

def holds (s part : String) : Bool := (Regex.lit part).isMatch s.toList

def ref (value : Option Json) : Except Thrown String := do
  let parsed ← memberText value refPattern 255
  throwIf (parsed = "@" ∨ holds parsed ".." = true ∨ holds parsed "@\x7b" = true ∨
    Text.endsWith parsed "." = true ∨ (parsed.toList.splitOn '/').any (fun part => part.isEmpty ||
      Text.startsWith (String.ofList part) "." || Text.endsWith (String.ofList part) ".lock") = true) invalid
  return parsed

def digits (cs : List Char) : Option Nat :=
  if cs.all Char.isDigit then some (Text.decimal (String.ofList cs)) else none

/-- `Date.parse` of `YYYY-MM-DDTHH:MM:SS` with or without milliseconds, for a time that exists; others do
not print as they were given. -/
def isoMillis (s : List Char) : Option Int :=
  match s with
  | y₁ :: y₂ :: y₃ :: y₄ :: '-' :: m₁ :: m₂ :: '-' :: d₁ :: d₂ :: 'T' :: h₁ :: h₂ :: ':' :: n₁ :: n₂ :: ':' ::
      s₁ :: s₂ :: rest => do
    let milli ← match rest with
      | ['Z'] => some 0
      | ['.', f₁, f₂, f₃, 'Z'] => digits [f₁, f₂, f₃]
      | _ => none
    utcMillis (← digits [y₁, y₂, y₃, y₄]) (← digits [m₁, m₂]) (← digits [d₁, d₂]) (← digits [h₁, h₂])
      (← digits [n₁, n₂]) (← digits [s₁, s₂]) milli
  | _ => none

def timestamp (value : Option Json) : Except Thrown Timestamp :=
  match value with
  | some (.str s) =>
    match isoMillis s.toList with
    | some millis => .ok ⟨s, millis⟩
    | none => .error invalid
  | _ => .error invalid

def previewAction (value : Option Json) : Except Thrown PreviewAction :=
  match value with
  | some (.str "opened") => .ok .opened
  | some (.str "synchronize") => .ok .synchronize
  | some (.str "reopened") => .ok .reopened
  | some (.str "closed") => .ok .closed
  | _ => .error invalid

def beforeShaOf (value : Option Json) : Except Thrown (Option String) :=
  match value with
  | some .null => .ok none
  | other => (memberText other shaPattern 128).map some

/-- The id of the delivery in lower case, and the event. -/
def parsePreviewWebhookPayload (input : Json) : Except Thrown (String × PreviewWebhook) := do
  let value ← exact input webhookKeys
  let action ← previewAction (Json.member value "action")
  let beforeSha ← beforeShaOf (Json.member value "beforeSha")
  throwIf (action = .synchronize ∧ beforeSha = none) invalid
  let deliveryId ← memberText (Json.member value "deliveryId") uuidPattern 128
  let installationId ← numericId (Json.member value "installationId")
  let repositoryId ← numericId (Json.member value "repositoryId")
  let repository ← memberText (Json.member value "repository") repositoryPattern 140
  let pullRequestNumber ← positive (Json.member value "pullRequestNumber")
  let headSha ← memberText (Json.member value "headSha") shaPattern 128
  let headRef ← ref (Json.member value "headRef")
  let baseRef ← ref (Json.member value "baseRef")
  let updatedAt ← timestamp (Json.member value "updatedAt")
  return (Text.jsLower deliveryId, ⟨installationId, repositoryId, repository, pullRequestNumber, action, headSha,
    headRef, baseRef, beforeSha, updatedAt⟩)

/-! ### Valid events -/

/-- The event of a payload that was accepted. -/
def ValidEvent (event : PreviewWebhook) : Prop :=
  ∃ input deliveryId, parsePreviewWebhookPayload input = .ok (deliveryId, event)

def nul : Char := Char.ofNat 0

theorem memberText_ok {value : Option Json} {pattern : String → Bool} {limit : Nat} {s : String}
    (h : memberText value pattern limit = .ok s) : pattern s = true := by
  unfold memberText at h
  split at h
  · unfold Preview.text at h
    obtain ⟨_, hcheck, h⟩ := bind_ok.1 h
    obtain rfl := pure_ok.1 h
    simpa using (not_or.1 (throwIf_ok.1 hcheck)).2
  · cases h

theorem nul_not_mem_of_shaPattern {s : String} (h : shaPattern s = true) : nul ∉ s.toList := by
  intro hnul
  have hall := List.all_eq_true.1 (Bool.and_eq_true_iff.1 h).1 nul hnul
  exact absurd hall (by decide)

theorem ne_empty_of_shaPattern {s : String} (h : shaPattern s = true) : s ≠ "" := by
  rintro rfl
  exact absurd h (by decide)

theorem nul_not_mem_of_ref {value : Option Json} {s : String} (h : ref value = .ok s) : nul ∉ s.toList := by
  unfold ref at h
  obtain ⟨parsed, hparsed, h⟩ := bind_ok.1 h
  obtain ⟨-, -, h⟩ := bind_ok.1 h
  obtain rfl := pure_ok.1 h
  have hpattern := memberText_ok hparsed
  intro hnul
  have hall := List.all_eq_true.1 (Bool.and_eq_true_iff.1 hpattern).2 nul hnul
  exact absurd hall (by decide)

/-- What the checks leave of the texts of an event. -/
structure Separable (event : PreviewWebhook) : Prop where
  headSha : nul ∉ event.headSha.toList
  beforeSha : ∀ sha, event.beforeSha = some sha → nul ∉ sha.toList ∧ sha ≠ ""
  headRef : nul ∉ event.headRef.toList
  baseRef : nul ∉ event.baseRef.toList

theorem ValidEvent.separable {event : PreviewWebhook} (h : ValidEvent event) : Separable event := by
  obtain ⟨input, deliveryId, h⟩ := h
  unfold parsePreviewWebhookPayload at h
  obtain ⟨value, -, h⟩ := bind_ok.1 h
  obtain ⟨action, -, h⟩ := bind_ok.1 h
  obtain ⟨beforeSha, hbefore, h⟩ := bind_ok.1 h
  obtain ⟨-, -, h⟩ := bind_ok.1 h
  obtain ⟨delivery, -, h⟩ := bind_ok.1 h
  obtain ⟨installationId, -, h⟩ := bind_ok.1 h
  obtain ⟨repositoryId, -, h⟩ := bind_ok.1 h
  obtain ⟨repository, -, h⟩ := bind_ok.1 h
  obtain ⟨pullRequestNumber, -, h⟩ := bind_ok.1 h
  obtain ⟨headSha, hhead, h⟩ := bind_ok.1 h
  obtain ⟨headRef, hheadRef, h⟩ := bind_ok.1 h
  obtain ⟨baseRef, hbaseRef, h⟩ := bind_ok.1 h
  obtain ⟨updatedAt, -, h⟩ := bind_ok.1 h
  obtain ⟨-, rfl⟩ := Prod.mk.inj (pure_ok.1 h)
  refine ⟨nul_not_mem_of_shaPattern (memberText_ok hhead), ?_, nul_not_mem_of_ref hheadRef,
    nul_not_mem_of_ref hbaseRef⟩
  intro sha hsha
  unfold beforeShaOf at hbefore
  split at hbefore
  · cases hbefore
    cases hsha
  · obtain ⟨text, htext, rfl⟩ := map_ok.1 hbefore
    obtain rfl := Option.some.inj hsha
    have hpattern := memberText_ok htext
    exact ⟨nul_not_mem_of_shaPattern hpattern, ne_empty_of_shaPattern hpattern⟩

/-! ### The key of an event -/

/-- What the key of an event is made of. -/
structure Content where
  action : String
  headSha : String
  beforeSha : Option String
  headRef : String
  baseRef : String
  deriving DecidableEq, Repr

def PreviewWebhook.content (event : PreviewWebhook) : Content :=
  ⟨event.action.text, event.headSha, event.beforeSha, event.headRef, event.baseRef⟩

def PreviewLineageRecord.content (lineage : PreviewLineageRecord) : Content :=
  ⟨lineage.eventAction, lineage.headSha, lineage.beforeSha, lineage.headRef, lineage.baseRef⟩

def Content.key (c : Content) : String := joinKey c.action c.headSha c.beforeSha c.headRef c.baseRef

def Content.parts (c : Content) : List String := [c.action, c.headSha, c.beforeSha.getD "", c.headRef, c.baseRef]

theorem nul_not_mem_action (action : PreviewAction) : nul ∉ action.text.toList := by
  cases action <;> decide

theorem Separable.parts {event : PreviewWebhook} (h : Separable event) :
    ∀ part ∈ event.content.parts, nul ∉ part.toList := by
  have hbefore : nul ∉ (event.beforeSha.getD "").toList := by
    cases hsha : event.beforeSha with
    | none => decide
    | some sha => exact (h.beforeSha sha hsha).1
  intro part hpart
  simp only [Content.parts, PreviewWebhook.content, List.mem_cons, List.not_mem_nil, or_false] at hpart
  rcases hpart with rfl | rfl | rfl | rfl | rfl
  · exact nul_not_mem_action event.action
  · exact h.headSha
  · exact hbefore
  · exact h.headRef
  · exact h.baseRef

/-- The parts can be read off the key. -/
theorem parts_of_key {c d : Content} (hc : ∀ part ∈ c.parts, nul ∉ part.toList)
    (hd : ∀ part ∈ d.parts, nul ∉ part.toList) (h : c.key = d.key) : c.parts = d.parts := by
  have hsplit : ∀ e : Content, (∀ part ∈ e.parts, nul ∉ part.toList) →
      e.key.toList.splitOn nul = e.parts.map String.toList := by
    intro e he
    have hkey : e.key.toList = [nul].intercalate (e.parts.map String.toList) := String.toList_intercalate
    rw [hkey]
    refine List.splitOn_intercalate nul (fun l hl => ?_) (by simp [Content.parts])
    obtain ⟨part, hpart, rfl⟩ := List.mem_map.1 hl
    exact he part hpart
  have hmap : c.parts.map String.toList = d.parts.map String.toList := by
    rw [← hsplit c hc, ← hsplit d hd, h]
  exact List.map_injective_iff.2 (fun _ _ => String.toList_injective) hmap

/-- Events with one key are alike in everything the key is made of. -/
theorem key_eq_iff {e f : PreviewWebhook} (he : Separable e) (hf : Separable f) :
    e.content.key = f.content.key ↔ e.content = f.content := by
  constructor
  · intro h
    have hparts := parts_of_key he.parts hf.parts h
    simp only [Content.parts, PreviewWebhook.content, List.cons.injEq, and_true] at hparts
    obtain ⟨haction, hhead, hbefore, hheadRef, hbaseRef⟩ := hparts
    have hsha : e.beforeSha = f.beforeSha := by
      cases hb : e.beforeSha with
      | none =>
        cases hb' : f.beforeSha with
        | none => rfl
        | some sha =>
          rw [hb, hb'] at hbefore
          exact absurd hbefore.symm (hf.beforeSha sha hb').2
      | some sha =>
        cases hb' : f.beforeSha with
        | none =>
          rw [hb, hb'] at hbefore
          exact absurd hbefore (he.beforeSha sha hb).2
        | some sha' =>
          rw [hb, hb'] at hbefore
          exact congrArg some hbefore
    unfold PreviewWebhook.content
    rw [haction, hhead, hsha, hheadRef, hbaseRef]
  · intro h
    rw [h]

end RaibitServer.Preview
