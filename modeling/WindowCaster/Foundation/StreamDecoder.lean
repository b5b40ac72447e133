import Mathlib.Data.List.Basic

/-!
# Decoding a stream item by item

A `Decoder` reads one item off the front of a list. It consumes something whenever it succeeds, and
what it has read does not change when more input arrives. `drain` reads as many items as there are.
Draining a stream in two parts is the same as draining it at once, so the items do not depend on
how a stream is cut. The last section relates draining to an encoder of the items.
-/

namespace WindowCaster.Foundation.StreamDecoder

/-- A reader of single items, with the two laws that make repeated reading well defined. -/
structure Decoder (α β : Type) where
  next : List α → Option (β × List α)
  shrinks : ∀ {input item rest}, next input = some (item, rest) → rest.length < input.length
  stable : ∀ {input item rest} (more : List α),
    next input = some (item, rest) → next (input ++ more) = some (item, rest ++ more)

namespace Decoder

variable {α β : Type} (decoder : Decoder α β)

/-- All items at the front of the input, and what is left after them. -/
def drain (input : List α) : List β × List α :=
  match _h : decoder.next input with
  | none => ([], input)
  | some (item, rest) => (item :: (drain rest).1, (drain rest).2)
termination_by input.length
decreasing_by all_goals exact decoder.shrinks _h

theorem drain_of_none {input : List α} (h : decoder.next input = none) :
    decoder.drain input = ([], input) := by
  rw [drain]
  split
  · rfl
  · simp_all

theorem drain_of_some {input rest : List α} {item : β} (h : decoder.next input = some (item, rest)) :
    decoder.drain input = (item :: (decoder.drain rest).1, (decoder.drain rest).2) := by
  rw [drain]
  split
  · simp_all
  · simp_all

/-- Induction along the items that a stream starts with. -/
theorem drain_induction {motive : List α → Prop}
    (hnone : ∀ input, decoder.next input = none → motive input)
    (hsome : ∀ input item rest, decoder.next input = some (item, rest) → motive rest → motive input)
    (input : List α) : motive input := by
  induction hlength : input.length using Nat.strongRecOn generalizing input with
  | ind length ih =>
    subst hlength
    cases hnext : decoder.next input with
    | none => exact hnone input hnext
    | some read =>
      obtain ⟨item, rest⟩ := read
      exact hsome input item rest hnext (ih _ (decoder.shrinks hnext) rest rfl)

/-- Draining ends where no further item can be read. -/
theorem next_drain_snd (input : List α) : decoder.next (decoder.drain input).2 = none := by
  induction input using decoder.drain_induction with
  | hnone input h => rw [drain_of_none _ h, h]
  | hsome input item rest h ih => rwa [drain_of_some _ h]

/-- A stream may be drained up to any point and continued from what was left there. -/
theorem drain_append (input more : List α) :
    decoder.drain (input ++ more) =
      ((decoder.drain input).1 ++ (decoder.drain ((decoder.drain input).2 ++ more)).1,
        (decoder.drain ((decoder.drain input).2 ++ more)).2) := by
  induction input using decoder.drain_induction with
  | hnone input h => rw [drain_of_none _ h, List.nil_append]
  | hsome input item rest h ih =>
    rw [drain_of_some _ h, drain_of_some _ (decoder.stable more h), ih]
    rfl

/-! ## Encoders -/

section Encoder

variable (encode : β → List α)

/-- Items written one after the other. -/
def encodeAll (items : List β) : List α := (items.map encode).flatten

@[simp]
theorem encodeAll_nil : encodeAll encode [] = [] := rfl

@[simp]
theorem encodeAll_cons (item : β) (items : List β) :
    encodeAll encode (item :: items) = encode item ++ encodeAll encode items := rfl

@[simp]
theorem encodeAll_append (first second : List β) :
    encodeAll encode (first ++ second) = encodeAll encode first ++ encodeAll encode second := by
  simp [encodeAll]

theorem encodeAll_concat (items : List β) (item : β) :
    encodeAll encode (items ++ [item]) = encodeAll encode items ++ encode item := by
  simp

/-- Items that the decoder reads back are all recovered, whatever follows them. -/
theorem drain_encodeAll_append {items : List β} (rest : List α)
    (hread : ∀ item ∈ items, ∀ rest, decoder.next (encode item ++ rest) = some (item, rest)) :
    decoder.drain (encodeAll encode items ++ rest) =
      (items ++ (decoder.drain rest).1, (decoder.drain rest).2) := by
  induction items with
  | nil => rfl
  | cons item items ih =>
    have htail := ih fun other hother ↦ hread other (List.mem_cons_of_mem _ hother)
    rw [encodeAll_cons, List.append_assoc, drain_of_some _ (hread item List.mem_cons_self _), htail]
    rfl

/-- A prefix of an encoded stream that is itself encoded holds the first of the items. -/
theorem isPrefix_of_encodeAll {first second : List β}
    (hfirst : ∀ item ∈ first, ∀ rest, decoder.next (encode item ++ rest) = some (item, rest))
    (hsecond : ∀ item ∈ second, ∀ rest, decoder.next (encode item ++ rest) = some (item, rest))
    (h : encodeAll encode first <+: encodeAll encode second) : first <+: second := by
  obtain ⟨rest, hrest⟩ := h
  have hnil : decoder.next [] = none := by
    cases hnext : decoder.next [] with
    | none => rfl
    | some read => exact absurd (decoder.shrinks hnext) (Nat.not_lt_zero _)
  have hall := decoder.drain_encodeAll_append encode [] hsecond
  rw [List.append_nil, decoder.drain_of_none hnil, List.append_nil, ← hrest,
    decoder.drain_encodeAll_append encode rest hfirst] at hall
  exact ⟨_, congrArg Prod.fst hall⟩

/-- A decoder that undoes the encoder loses nothing: the items and the rest make up the input. -/
theorem encodeAll_drain
    (hexact : ∀ {input item rest}, decoder.next input = some (item, rest) → input = encode item ++ rest)
    (input : List α) :
    encodeAll encode (decoder.drain input).1 ++ (decoder.drain input).2 = input := by
  induction input using decoder.drain_induction with
  | hnone input h => rw [drain_of_none _ h, encodeAll_nil, List.nil_append]
  | hsome input item rest h ih =>
    rw [drain_of_some _ h, encodeAll_cons]
    calc
      _ = encode item ++ (encodeAll encode (decoder.drain rest).1 ++ (decoder.drain rest).2) :=
        List.append_assoc _ _ _
      _ = encode item ++ rest := by rw [ih]
      _ = input := (hexact h).symm

/-- Every drained item satisfies what holds of each item the decoder reads. -/
theorem forall_mem_drain {property : β → Prop}
    (hread : ∀ {input item rest}, decoder.next input = some (item, rest) → property item)
    (input : List α) : ∀ item ∈ (decoder.drain input).1, property item := by
  induction input using decoder.drain_induction with
  | hnone input h => simp [drain_of_none _ h]
  | hsome input item rest h ih =>
    rw [drain_of_some _ h]
    exact List.forall_mem_cons.2 ⟨hread h, ih⟩

end Encoder

end Decoder

end WindowCaster.Foundation.StreamDecoder
