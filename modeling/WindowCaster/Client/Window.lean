import WindowCaster.Client.Main
import WindowCaster.Foundation.CaseMapping
import WindowCaster.Foundation.Numerals

/-!
# The printed list of windows

`list_windows` prints the windows whose title contains the filter, both in lowercase. A capital sigma
at an end of the filter may become another letter than it does inside the title, so a title that
contains the filter literally can be left out. This happens to some title exactly if the filter is
not stable.
-/

namespace WindowCaster.Client.Window

open Foundation.CaseMapping Foundation.Numerals Protocol.Messages Main

/-! ## The code -/

/-- `0x{:X}` -/
def handleText (handle : UInt64) : String :=
  "0x" ++ String.ofList (upperDigits 16 handle.toNat)

/-- `WindowInfo::fmt` -/
def display (window : WindowInfo String) : String :=
  handleText window.handle ++ " [" ++ window.className ++ "] - " ++ window.title

def displayVerbose (window : WindowInfo String) : String :=
  "Window Handle: " ++ handleText window.handle ++ "\nTitle: " ++ window.title ++ "\nClass: " ++
    window.className ++ "\n"

/-- What one window adds to the output. -/
def printed (verbose : Bool) (window : WindowInfo String) : String :=
  if verbose then displayVerbose window ++ "\n" else display window

/-- `str::contains`, character for character. -/
def contains (text pattern : List Char) : Bool := pattern <:+: text

section Code

variable (data : CaseData)

/-- The condition in `filter`. -/
def isListed (filter : Option String) (window : WindowInfo String) : Bool :=
  match filter with
  | some filter => contains (data.toLowercase window.title.toList) (data.toLowercase filter.toList)
  | none => true

/-- The text of each `println!`. -/
def listWindows (manager : WindowManager) (filter : Option String) (verbose : Bool) : List String :=
  let filteredWindows := manager.windows.filter (isListed data filter)
  if filteredWindows.isEmpty then ["No matching windows found"]
  else ("Found " ++ toString filteredWindows.length ++ " windows:") ::
    filteredWindows.map (printed verbose)

end Code

/-! ## Literal matches -/

/-- The windows whose title contains the filter as it is. -/
def literalMatches (manager : WindowManager) (filter : String) : List (WindowInfo String) :=
  manager.windows.filter fun window ↦ contains window.title.toList filter.toList

/-- Whatever windows there are, those with a literal match are printed below the headline in their
order, and no match is reported only if there is none. -/
def ShowsLiteralMatches (data : CaseData) (filter : String) : Prop :=
  ∀ (manager : WindowManager) (verbose : Bool),
    ((literalMatches manager filter).map (printed verbose)).Sublist
      (listWindows data manager (some filter) verbose).tail ∧
    (listWindows data manager (some filter) verbose = ["No matching windows found"] →
      literalMatches manager filter = [])

variable {data : CaseData} {filter : String}

@[simp]
theorem contains_iff {text pattern : List Char} : contains text pattern = true ↔ pattern <:+: text :=
  decide_eq_true_iff

theorem tail_listWindows (manager : WindowManager) (filter : Option String) (verbose : Bool) :
    (listWindows data manager filter verbose).tail =
      (manager.windows.filter (isListed data filter)).map (printed verbose) := by
  unfold listWindows
  dsimp only
  split
  · next hempty => rw [List.isEmpty_iff.1 hempty, List.map_nil, List.tail_cons]
  · rfl

/-- The windows with a literal match are among those that are listed. -/
theorem literalMatches_sublist (h : data.Stable filter.toList) (manager : WindowManager) :
    (literalMatches manager filter).Sublist
      (manager.windows.filter (isListed data (some filter))) := by
  apply List.monotone_filter_right
  intro window hwindow
  rw [contains_iff] at hwindow
  exact contains_iff.2 (h.isInfix hwindow)

/-- A filter hides no literal match if and only if it is stable. -/
theorem showsLiteralMatches_iff (data : CaseData) (filter : String) :
    ShowsLiteralMatches data filter ↔ data.Stable filter.toList := by
  constructor
  · intro h
    rw [CaseData.stable_iff]
    intro title htitle
    by_contra hne
    let window : WindowInfo String := ⟨0, String.ofList title, ""⟩
    have hhidden : isListed data (some filter) window = false := by
      rw [isListed, String.toList_ofList, ← Bool.not_eq_true, contains_iff]
      exact hne
    have hmatch : literalMatches ⟨[window]⟩ filter = [window] := by
      apply List.filter_cons_of_pos
      rw [contains_iff, String.toList_ofList]
      exact htitle
    obtain ⟨-, hnone⟩ := h ⟨[window]⟩ false
    rw [hmatch] at hnone
    apply List.cons_ne_nil window []
    apply hnone
    simp [listWindows, hhidden]
  · intro h manager verbose
    have hmatches := (literalMatches_sublist h manager).map (printed verbose)
    rw [← tail_listWindows] at hmatches
    refine ⟨hmatches, ?_⟩
    intro hnone
    rwa [hnone, List.tail_cons, List.sublist_nil, List.map_eq_nil_iff] at hmatches

/-! ## A Greek title -/

/-- The entries of the ASCII characters and of the Greek letters without accents. -/
def greekData : CaseData where
  toLower char := [if char.isUpper || ('Α' ≤ char && char ≤ 'Ω') then Char.ofNat (char.toNat + 32)
    else char]
  cased char := char.isAlpha || ('Α' ≤ char && char ≤ 'Ω') || ('α' ≤ char && char ≤ 'ω')
  caseIgnorable char := char.toNat ∈ [0x27, 0x2E, 0x3A, 0x5E, 0x60]
  toLower_a := by decide
  cased_a := by decide
  caseIgnorable_a := by decide

def greekWindow : WindowInfo String := ⟨1, "ΠΡΟΣΩΠΟ", ""⟩

/-- The title ΠΡΟΣΩΠΟ contains the filter ΠΡΟΣ, and its window is not shown. -/
theorem not_showsLiteralMatches :
    literalMatches ⟨[greekWindow]⟩ "ΠΡΟΣ" = [greekWindow] ∧
      listWindows greekData ⟨[greekWindow]⟩ (some "ΠΡΟΣ") false = ["No matching windows found"] := by
  have hfilter : "ΠΡΟΣ" = String.ofList ['Π', 'Ρ', 'Ο', 'Σ'] := rfl
  have htitle : greekWindow.title = String.ofList ['Π', 'Ρ', 'Ο', 'Σ', 'Ω', 'Π', 'Ο'] := rfl
  constructor
  · apply List.filter_cons_of_pos
    rw [hfilter, htitle, String.toList_ofList, String.toList_ofList]
    decide
  · have hhidden : isListed greekData (some "ΠΡΟΣ") greekWindow = false := by
      rw [isListed, hfilter, htitle, String.toList_ofList, String.toList_ofList]
      decide
    simp [listWindows, hhidden]

end WindowCaster.Client.Window
