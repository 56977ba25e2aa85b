import Mathlib.Data.List.Basic

/-!
# Lib.Reader — readers of a stream

A reader takes something off the front of a stream, or fails.  `Reads r code a`: on `code`, whatever follows it, the
reader gives `a` and leaves what follows.  `Extends r`: what it gives does not change when more follows.

Both pass through `andThen` and `times`, so a format is checked token by token.  A reader with both properties fails on
everything that ends before a code does (`Reads.fails`).
-/

namespace RaibitServer.Lib

variable {τ α β : Type*}

abbrev Reader (τ α : Type*) := List τ → Option (α × List τ)

namespace Reader

/-- The next item. -/
def next : Reader τ τ
  | [] => none
  | item :: rest => some (item, rest)

/-- One reader, and another that depends on what it gave. -/
def andThen (r : Reader τ α) (f : α → Reader τ β) : Reader τ β := fun stream => (r stream).bind fun x => f x.1 x.2

/-- A value that takes nothing off the stream, or a failure. -/
def lift (value : Option α) : Reader τ α := fun stream => value.map (·, stream)

/-- `n` times the same. -/
def times (r : Reader τ α) : Nat → Reader τ (List α)
  | 0 => lift (some [])
  | n + 1 => r.andThen fun a => (times r n).andThen fun rest => lift (some (a :: rest))

def Reads (r : Reader τ α) (code : List τ) (a : α) : Prop := ∀ rest, r (code ++ rest) = some (a, rest)

def Extends (r : Reader τ α) : Prop :=
  ∀ stream a rest, r stream = some (a, rest) → ∀ more, r (stream ++ more) = some (a, rest ++ more)

theorem reads_next (item : τ) : Reads next [item] item := fun _ => rfl

theorem extends_next : Extends (next : Reader τ τ) := by
  intro stream a rest h more
  cases stream with
  | nil => cases h
  | cons item stream =>
    cases h
    rfl

theorem reads_lift (a : α) : Reads (lift (some a) : Reader τ α) [] a := fun _ => rfl

theorem extends_lift (value : Option α) : Extends (lift value : Reader τ α) := by
  intro stream a rest h more
  cases value with
  | none => cases h
  | some value =>
    cases h
    rfl

variable {r : Reader τ α}

theorem Reads.andThen {f : α → Reader τ β} {code code' : List τ} {a : α} {b : β} (h : Reads r code a)
    (h' : Reads (f a) code' b) : Reads (r.andThen f) (code ++ code') b := by
  intro rest
  rw [Reader.andThen, List.append_assoc, h]
  exact h' rest

theorem Extends.andThen {f : α → Reader τ β} (h : Extends r) (h' : ∀ a, Extends (f a)) : Extends (r.andThen f) := by
  intro stream b rest hread more
  obtain ⟨⟨a, middle⟩, hr, hf⟩ := Option.bind_eq_some_iff.1 hread
  rw [Reader.andThen, h _ _ _ hr]
  exact h' a _ _ _ hf more

theorem Extends.times (h : Extends r) (n : Nat) : Extends (r.times n) := by
  induction n with
  | zero => exact extends_lift _
  | succ n ih => exact h.andThen fun _ => ih.andThen fun _ => extends_lift _

/-- Items that are read one by one are read in a row. -/
theorem reads_times {code : α → List τ} {items : List α} (h : ∀ a ∈ items, Reads r (code a) a) :
    Reads (r.times items.length) (items.flatMap code) items := by
  induction items with
  | nil => exact reads_lift []
  | cons a items ih =>
    have hrest := ih fun b hb => h b (List.mem_cons_of_mem _ hb)
    have hall : Reads (r.times (items.length + 1)) (code a ++ (items.flatMap code ++ [])) (a :: items) :=
      (h a List.mem_cons_self).andThen (hrest.andThen (reads_lift (a :: items)))
    rwa [List.append_nil] at hall

/-- **A stream that ends inside a code is refused.** -/
theorem Reads.fails {code part : List τ} {a : α} (h : Reads r code a) (hextends : Extends r) (hpart : part <+: code)
    (hne : part ≠ code) : r part = none := by
  obtain ⟨missing, rfl⟩ := hpart
  cases hread : r part with
  | none => rfl
  | some result =>
    obtain ⟨b, rest⟩ := result
    have hmore := hextends _ _ _ hread missing
    have hall := h []
    rw [List.append_nil, hmore] at hall
    obtain ⟨-, hnothing⟩ := Prod.mk.inj (Option.some.inj hall)
    have hmissing : missing = [] := (List.append_eq_nil_iff.1 hnothing).2
    exact absurd (by rw [hmissing, List.append_nil]) hne

end Reader

end RaibitServer.Lib
