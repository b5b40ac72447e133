import Mathlib.Data.List.Infix

/-!
# Lowercase text

Every character is mapped on its own, except that a capital sigma becomes a final sigma at the end
of a word. What a capital sigma becomes therefore depends on the text around it, and the image of a
part need not be a part of the image. A text keeps its image in every surrounding text if and only
if none of its capital sigmas looks beyond the ends of the text.
-/

namespace WindowCaster.Foundation.CaseMapping

/-- The Unicode tables in use, with the entries of the letter `a`. -/
structure CaseData where
  toLower : Char → List Char
  cased : Char → Bool
  caseIgnorable : Char → Bool
  toLower_a : toLower 'a' = ['a']
  cased_a : cased 'a' = true
  caseIgnorable_a : caseIgnorable 'a' = false

namespace CaseData

variable (data : CaseData)

/-- The first character that is not ignorable is cased. -/
def caseIgnorableThenCased (chars : List Char) : Bool :=
  (chars.dropWhile data.caseIgnorable).head?.any data.cased

/-- The image of a capital sigma after `before`, which begins with the nearest character, and before
`after`. -/
def mapUppercaseSigma (before after : List Char) : Char :=
  if data.caseIgnorableThenCased before && !data.caseIgnorableThenCased after then 'ς' else 'σ'

/-- The image of a part of a text; `before` begins with the nearest character. -/
def lowercaseIn (before : List Char) : List Char → List Char → List Char
  | [], _ => []
  | char :: rest, after =>
    (if char = 'Σ' then [data.mapUppercaseSigma before (rest ++ after)] else data.toLower char) ++
      lowercaseIn (char :: before) rest after

/-- `str::to_lowercase` -/
def toLowercase (text : List Char) : List Char := data.lowercaseIn [] text []

variable {data}

/-! ## Looking along the text -/

theorem caseIgnorableThenCased_append (first second : List Char) :
    data.caseIgnorableThenCased (first ++ second) =
      if first.all data.caseIgnorable then data.caseIgnorableThenCased second
      else data.caseIgnorableThenCased first := by
  induction first with
  | nil => rfl
  | cons char first ih =>
    cases hchar : data.caseIgnorable char with
    | true => simpa [caseIgnorableThenCased, hchar] using ih
    | false => simp [caseIgnorableThenCased, hchar]

theorem caseIgnorableThenCased_of_all {chars : List Char}
    (h : chars.all data.caseIgnorable = true) : data.caseIgnorableThenCased chars = false := by
  have happend : data.caseIgnorableThenCased (chars ++ []) = data.caseIgnorableThenCased [] := by
    rw [caseIgnorableThenCased_append, if_pos h]
  rwa [List.append_nil] at happend

theorem caseIgnorableThenCased_append_left {first : List Char}
    (h : data.caseIgnorableThenCased first = true) (second : List Char) :
    data.caseIgnorableThenCased (first ++ second) = true := by
  rw [caseIgnorableThenCased_append]
  split
  · next hall =>
    rw [caseIgnorableThenCased_of_all hall] at h
    cases h
  · exact h

theorem caseIgnorableThenCased_append_a {first : List Char}
    (h : first.all data.caseIgnorable = true) :
    data.caseIgnorableThenCased (first ++ ['a']) = true := by
  rw [caseIgnorableThenCased_append, if_pos h]
  simp [caseIgnorableThenCased, data.caseIgnorable_a, data.cased_a]

theorem mapUppercaseSigma_eq_final {before after : List Char} :
    data.mapUppercaseSigma before after = 'ς' ↔
      data.caseIgnorableThenCased before = true ∧ data.caseIgnorableThenCased after = false := by
  cases hbefore : data.caseIgnorableThenCased before <;>
    cases hafter : data.caseIgnorableThenCased after <;> simp [mapUppercaseSigma, hbefore, hafter]

theorem mapUppercaseSigma_eq_medial {before after : List Char} :
    data.mapUppercaseSigma before after = 'σ' ↔
      (data.caseIgnorableThenCased before = true → data.caseIgnorableThenCased after = true) := by
  cases hbefore : data.caseIgnorableThenCased before <;>
    cases hafter : data.caseIgnorableThenCased after <;> simp [mapUppercaseSigma, hbefore, hafter]

/-! ## Parts of a text -/

theorem lowercaseIn_append (before first second after : List Char) :
    data.lowercaseIn before (first ++ second) after =
      data.lowercaseIn before first (second ++ after) ++
        data.lowercaseIn (first.reverse ++ before) second after := by
  induction first generalizing before with
  | nil => rfl
  | cons char first ih =>
    rw [List.cons_append, lowercaseIn, lowercaseIn, ih, List.append_assoc, List.append_assoc,
      List.reverse_cons, List.append_assoc, List.singleton_append]

/-- The image of a part occurs in the image of the text. -/
theorem lowercaseIn_isInfix (before text after : List Char) :
    data.lowercaseIn before.reverse text after <:+: data.toLowercase (before ++ text ++ after) := by
  refine ⟨data.lowercaseIn [] before (text ++ after),
    data.lowercaseIn (text.reverse ++ before.reverse) after [], ?_⟩
  rw [toLowercase, lowercaseIn_append, lowercaseIn_append, List.append_nil, List.append_nil,
    List.append_nil, List.reverse_append]

section Contexts

variable {before before' after after' : List Char} {text : List Char}

/-- Only the capital sigmas look at the surrounding text. -/
theorem lowercaseIn_congr
    (h : ∀ first second, text = first ++ 'Σ' :: second →
      data.mapUppercaseSigma (first.reverse ++ before) (second ++ after) =
        data.mapUppercaseSigma (first.reverse ++ before') (second ++ after')) :
    data.lowercaseIn before text after = data.lowercaseIn before' text after' := by
  induction text generalizing before before' with
  | nil => rfl
  | cons char text ih =>
    have hrest : data.lowercaseIn (char :: before) text after =
        data.lowercaseIn (char :: before') text after' := by
      apply ih
      intro first second htext
      have hsigma := h (char :: first) second (by rw [htext, List.cons_append])
      rwa [List.reverse_cons, List.append_assoc, List.append_assoc, List.singleton_append] at hsigma
    rw [lowercaseIn, lowercaseIn, hrest]
    by_cases hchar : char = 'Σ'
    · have hsigma := h [] text (by rw [hchar, List.nil_append])
      rw [List.reverse_nil, List.nil_append, List.nil_append] at hsigma
      rw [if_pos hchar, if_pos hchar, hsigma]
    · rw [if_neg hchar, if_neg hchar]

/-- If every sigma that becomes `image` in one context also does in the other, `image` is at most as
frequent there. -/
theorem count_lowercaseIn_le {image : Char}
    (h : ∀ first second, text = first ++ 'Σ' :: second →
      data.mapUppercaseSigma (first.reverse ++ before) (second ++ after) = image →
        data.mapUppercaseSigma (first.reverse ++ before') (second ++ after') = image) :
    (data.lowercaseIn before text after).count image ≤
      (data.lowercaseIn before' text after').count image := by
  induction text generalizing before before' with
  | nil => exact le_rfl
  | cons char text ih =>
    have hrest : (data.lowercaseIn (char :: before) text after).count image ≤
        (data.lowercaseIn (char :: before') text after').count image := by
      apply ih
      intro first second htext hfirst
      have hsigma := h (char :: first) second (by rw [htext, List.cons_append])
      rw [List.reverse_cons, List.append_assoc, List.append_assoc, List.singleton_append] at hsigma
      exact hsigma hfirst
    rw [lowercaseIn, lowercaseIn, List.count_append, List.count_append]
    apply Nat.add_le_add _ hrest
    by_cases hchar : char = 'Σ'
    · have hsigma := h [] text (by rw [hchar, List.nil_append])
      rw [List.reverse_nil, List.nil_append, List.nil_append] at hsigma
      rw [if_pos hchar, if_pos hchar, List.count_singleton, List.count_singleton]
      by_cases hfirst : data.mapUppercaseSigma before (text ++ after) = image
      · rw [hfirst, hsigma hfirst]
      · rw [if_neg (by simpa using hfirst)]
        exact Nat.zero_le _
    · rw [if_neg hchar, if_neg hchar]

/-- One sigma more that becomes `image` makes it more frequent. -/
theorem count_lowercaseIn_lt {image : Char} (first second : List Char)
    (h : ∀ first second, text = first ++ 'Σ' :: second →
      data.mapUppercaseSigma (first.reverse ++ before) (second ++ after) = image →
        data.mapUppercaseSigma (first.reverse ++ before') (second ++ after') = image)
    (htext : text = first ++ 'Σ' :: second)
    (hne : data.mapUppercaseSigma (first.reverse ++ before) (second ++ after) ≠ image)
    (heq : data.mapUppercaseSigma (first.reverse ++ before') (second ++ after') = image) :
    (data.lowercaseIn before text after).count image <
      (data.lowercaseIn before' text after').count image := by
  have hfirst : (data.lowercaseIn before first ('Σ' :: second ++ after)).count image ≤
      (data.lowercaseIn before' first ('Σ' :: second ++ after')).count image := by
    apply count_lowercaseIn_le
    intro left right hleft
    have hsigma := h left (right ++ 'Σ' :: second) (by rw [htext, hleft, List.append_assoc,
      List.cons_append])
    rwa [List.append_assoc, List.append_assoc] at hsigma
  have hsecond : (data.lowercaseIn ('Σ' :: (first.reverse ++ before)) second after).count image ≤
      (data.lowercaseIn ('Σ' :: (first.reverse ++ before')) second after').count image := by
    apply count_lowercaseIn_le
    intro left right hright
    have hsigma := h (first ++ 'Σ' :: left) right (by rw [htext, hright, List.append_assoc,
      List.cons_append])
    rwa [List.reverse_append, List.reverse_cons, List.append_assoc, List.append_assoc,
      List.append_assoc, List.append_assoc, List.singleton_append, List.singleton_append] at hsigma
  rw [htext, lowercaseIn_append, lowercaseIn_append, lowercaseIn, lowercaseIn, if_pos rfl,
    if_pos rfl]
  simp only [List.count_append, List.count_singleton, heq, beq_self_eq_true, if_true,
    beq_iff_eq, if_neg hne]
  omega

end Contexts

/-! ## Texts that keep their image -/

/-- What becomes of a capital sigma between `before` (nearest character first) and `after` depends
on what stands around them: on one side there are only ignorable characters, and the other side does
not settle the matter. -/
def Sensitive (data : CaseData) (before after : List Char) : Prop :=
  after.all data.caseIgnorable = true ∧ data.caseIgnorableThenCased before = true ∨
    before.all data.caseIgnorable = true ∧ data.caseIgnorableThenCased after = false

/-- None of the text's capital sigmas depends on what stands around the text. -/
def Stable (data : CaseData) (text : List Char) : Prop :=
  ∀ first second, text = first ++ 'Σ' :: second → ¬data.Sensitive first.reverse second

theorem mapUppercaseSigma_of_not_sensitive {first second : List Char}
    (h : ¬data.Sensitive first second) (before after : List Char) :
    data.mapUppercaseSigma (first ++ before) (second ++ after) =
      data.mapUppercaseSigma first second := by
  simp only [Sensitive, not_or, not_and, Bool.not_eq_true, Bool.not_eq_false] at h
  obtain ⟨hfirst, hsecond⟩ := h
  unfold mapUppercaseSigma
  rw [caseIgnorableThenCased_append, caseIgnorableThenCased_append]
  cases hbefore : first.all data.caseIgnorable with
  | true =>
    have hcased := hsecond hbefore
    have hall : second.all data.caseIgnorable = false := by
      by_contra hne
      rw [Bool.not_eq_false] at hne
      rw [caseIgnorableThenCased_of_all hne] at hcased
      cases hcased
    simp [hcased, hall]
  | false =>
    cases hafter : second.all data.caseIgnorable with
    | true => simp [hfirst hafter]
    | false => rfl

theorem Stable.lowercaseIn {text : List Char} (h : data.Stable text) (before after : List Char) :
    data.lowercaseIn before text after = data.toLowercase text := by
  apply lowercaseIn_congr
  intro first second htext
  rw [List.append_nil, List.append_nil]
  exact mapUppercaseSigma_of_not_sensitive (h first second htext) before after

/-- A stable text keeps its image wherever it occurs. -/
theorem Stable.isInfix {text whole : List Char} (h : data.Stable text) (hoccurs : text <:+: whole) :
    data.toLowercase text <:+: data.toLowercase whole := by
  obtain ⟨before, after, rfl⟩ := hoccurs
  have hpart : data.lowercaseIn before.reverse text after <:+:
      data.toLowercase (before ++ text ++ after) := lowercaseIn_isInfix before text after
  rwa [h.lowercaseIn] at hpart

/-- A text that would get less of `image` from its whole does not keep its image. -/
theorem not_infix_of_count_lt {text whole : List Char} (image : Char)
    (h : (data.toLowercase whole).count image < (data.toLowercase text).count image) :
    ¬data.toLowercase text <:+: data.toLowercase whole := by
  intro hoccurs
  exact Nat.not_le.2 h (hoccurs.sublist.count_le image)

/-- The last word of the text is continued, which costs a final sigma. -/
theorem not_infix_append_a {first second : List Char}
    (hafter : second.all data.caseIgnorable = true)
    (hbefore : data.caseIgnorableThenCased first.reverse = true) :
    ¬data.toLowercase (first ++ 'Σ' :: second) <:+:
      data.toLowercase (first ++ 'Σ' :: second ++ ['a']) := by
  apply not_infix_of_count_lt 'ς'
  calc
    _ = (data.lowercaseIn [] (first ++ 'Σ' :: second) ['a']).count 'ς' := by
      rw [toLowercase, lowercaseIn_append]
      simp [CaseData.lowercaseIn, data.toLower_a]
    _ < _ := by
      apply count_lowercaseIn_lt first second _ rfl
      · rw [ne_eq, mapUppercaseSigma_eq_final, caseIgnorableThenCased_append_a hafter]
        simp
      · rw [mapUppercaseSigma_eq_final, List.append_nil, List.append_nil,
          caseIgnorableThenCased_of_all hafter]
        exact ⟨hbefore, rfl⟩
      · intro left right _
        rw [mapUppercaseSigma_eq_final, mapUppercaseSigma_eq_final, List.append_nil]
        rintro ⟨hleft, hright⟩
        refine ⟨hleft, ?_⟩
        by_contra hcased
        rw [List.append_nil, Bool.not_eq_false] at hcased
        rw [caseIgnorableThenCased_append_left hcased] at hright
        cases hright

/-- The first word of the text gets a beginning, which costs a medial sigma. -/
theorem not_infix_cons_a {first second : List Char}
    (hbefore : first.reverse.all data.caseIgnorable = true)
    (hafter : data.caseIgnorableThenCased second = false) :
    ¬data.toLowercase (first ++ 'Σ' :: second) <:+:
      data.toLowercase ('a' :: (first ++ 'Σ' :: second)) := by
  apply not_infix_of_count_lt 'σ'
  calc
    _ = (data.lowercaseIn ['a'] (first ++ 'Σ' :: second) []).count 'σ' := by
      rw [toLowercase, CaseData.lowercaseIn]
      simp [data.toLower_a]
    _ < _ := by
      apply count_lowercaseIn_lt first second _ rfl
      · rw [ne_eq, mapUppercaseSigma_eq_medial, caseIgnorableThenCased_append_a hbefore,
          List.append_nil, hafter]
        simp
      · rw [mapUppercaseSigma_eq_medial, List.append_nil, caseIgnorableThenCased_of_all hbefore]
        exact fun h ↦ absurd h Bool.false_ne_true
      · intro left right _
        rw [mapUppercaseSigma_eq_medial, mapUppercaseSigma_eq_medial, List.append_nil]
        intro hcontext hleft
        rw [List.append_nil] at hleft
        exact hcontext (caseIgnorableThenCased_append_left hleft ['a'])

/-- Exactly the stable texts keep their image in every text that they are a part of. -/
theorem stable_iff (text : List Char) :
    data.Stable text ↔
      ∀ whole, text <:+: whole → data.toLowercase text <:+: data.toLowercase whole := by
  constructor
  · intro h whole hoccurs
    exact h.isInfix hoccurs
  · rintro h first second rfl (⟨hafter, hbefore⟩ | ⟨hbefore, hafter⟩)
    · exact not_infix_append_a hafter hbefore (h _ (List.prefix_append _ _).isInfix)
    · exact not_infix_cons_a hbefore hafter (h _ (List.suffix_cons _ _).isInfix)

end CaseData

end WindowCaster.Foundation.CaseMapping
