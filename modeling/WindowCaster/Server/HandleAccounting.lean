import WindowCaster.Server.RendererCalls

/-!
# The handles of a renderer

The ledger holds the device contexts and bitmaps that have been acquired and not yet released, and
the audit forbids a call with a handle that is not in it. Whatever succeeds or fails, the ledger is
what the fields of the renderer say, so nothing is lost, released twice or used after its release.
-/

namespace WindowCaster.Server.HandleAccounting

open Foundation.Interaction Foundation.Monitoring Foundation.Text Foundation.Transition
open Win32 Rendering RendererCalls

/-- The live handles. A device context of a window is listed with its window. -/
structure Ledger where
  windowDCs : List (Hwnd × Hdc)
  memoryDCs : List Hdc
  bitmaps : List Hbitmap
  deriving DecidableEq

namespace Ledger

def empty : Ledger := ⟨[], [], []⟩

def HasDC (ledger : Ledger) (dc : Hdc) : Prop :=
  dc ∈ ledger.windowDCs.map Prod.snd ∨ dc ∈ ledger.memoryDCs

instance (ledger : Ledger) (dc : Hdc) : Decidable (ledger.HasDC dc) :=
  inferInstanceAs (Decidable (_ ∨ _))

end Ledger

/-- A release must name a live handle, for a window's context together with its window, and every
other call may be given live handles only. A release that fails releases nothing. -/
def audit : Monitor Os Ledger
  | ledger, ⟨.getDC hwnd, dc⟩ =>
    some (if dc = nullptr then ledger
      else { ledger with windowDCs := (hwnd, dc) :: ledger.windowDCs })
  | ledger, ⟨.releaseDC hwnd dc, released⟩ =>
    if (hwnd, dc) ∈ ledger.windowDCs then
      some (if released then { ledger with windowDCs := ledger.windowDCs.erase (hwnd, dc) }
        else ledger)
    else none
  | ledger, ⟨.createCompatibleDC dc, memoryDC⟩ =>
    if ledger.HasDC dc then
      some (if memoryDC = nullptr then ledger
        else { ledger with memoryDCs := memoryDC :: ledger.memoryDCs })
    else none
  | ledger, ⟨.deleteDC dc, deleted⟩ =>
    if dc ∈ ledger.memoryDCs then
      some (if deleted then { ledger with memoryDCs := ledger.memoryDCs.erase dc } else ledger)
    else none
  | ledger, ⟨.createCompatibleBitmap dc _ _, bitmap⟩ =>
    if ledger.HasDC dc then
      some (if bitmap = nullptr then ledger
        else { ledger with bitmaps := bitmap :: ledger.bitmaps })
    else none
  | ledger, ⟨.deleteObject bitmap, deleted⟩ =>
    if bitmap ∈ ledger.bitmaps then
      some (if deleted then { ledger with bitmaps := ledger.bitmaps.erase bitmap } else ledger)
    else none
  | ledger, ⟨.selectObject dc bitmap, _⟩ | ledger, ⟨.setDIBits dc bitmap _ _ _ _, _⟩ =>
    if ledger.HasDC dc ∧ bitmap ∈ ledger.bitmaps then some ledger else none
  | ledger, ⟨.stretchBlt dcDest _ _ _ _ dcSrc _ _ _ _, _⟩ =>
    if ledger.HasDC dcDest ∧ ledger.HasDC dcSrc then some ledger else none
  | ledger, ⟨.setStretchBltModeHalftone dc, _⟩ | ledger, ⟨.setBrushOrgEx dc _ _, _⟩
  | ledger, ⟨.fillRect dc _ _, _⟩ => if ledger.HasDC dc then some ledger else none
  | ledger, _ => some ledger

/-- Releases succeed; nothing is said about the other calls. -/
def ReleaseSucceeds : Event Os → Prop
  | ⟨.releaseDC _ _, released⟩ => released = true
  | ⟨.deleteDC _, deleted⟩ => deleted = true
  | ⟨.deleteObject _, deleted⟩ => deleted = true
  | _ => True

/-- What the renderer's fields say is live. -/
def holdings (renderer : Renderer) : Ledger where
  windowDCs :=
    if renderer.windowDC = nullptr then [] else [(renderer.targetWindow, renderer.windowDC)]
  memoryDCs := if renderer.memoryDC = nullptr then [] else [renderer.memoryDC]
  bitmaps := if renderer.bitmap = nullptr then [] else [renderer.bitmap]

/-- Handles are acquired in one order and released in the other, so each is held only together
with those it was made from. -/
structure Nested (renderer : Renderer) : Prop where
  memoryDC_of_bitmap : renderer.bitmap ≠ nullptr → renderer.memoryDC ≠ nullptr
  windowDC_of_memoryDC : renderer.memoryDC ≠ nullptr → renderer.windowDC ≠ nullptr
  targetWindow_of_windowDC : renderer.windowDC ≠ nullptr → renderer.targetWindow ≠ nullptr

theorem nested_new : Nested .new := by
  constructor <;> simp [Renderer.new]

/-- The books are in order. -/
def Balanced (ledger : Ledger) (renderer : Renderer) : Prop :=
  ledger = holdings renderer ∧ Nested renderer

theorem ignores_rearranging {ledger : Ledger} (event : Event Os) (h : Renderer.Rearranging event) :
    audit ledger event = some ledger := by
  obtain ⟨call, answer⟩ := event
  cases call <;> simp_all [Renderer.Rearranging, audit]

theorem hasDC_windowDC {renderer : Renderer} (h : renderer.windowDC ≠ nullptr) :
    (holdings renderer).HasDC renderer.windowDC := by
  simp [Ledger.HasDC, holdings, h]

theorem hasDC_memoryDC {renderer : Renderer} (h : renderer.memoryDC ≠ nullptr) :
    (holdings renderer).HasDC renderer.memoryDC := by
  simp [Ledger.HasDC, holdings, h]

theorem mem_bitmaps {renderer : Renderer} (h : renderer.bitmap ≠ nullptr) :
    renderer.bitmap ∈ (holdings renderer).bitmaps := by
  simp [holdings, h]

/-! ## Releasing -/

theorem obeys_deleteBitmap (renderer : Renderer) :
    renderer.deleteBitmap.Obeys ReleaseSucceeds audit (holdings renderer) fun ledger left ↦
      left = { renderer with bitmap := nullptr } ∧ ledger = holdings left := by
  unfold Renderer.deleteBitmap
  split
  · next hnull => exact Program.obeys_pure ⟨by rw [← hnull], rfl⟩
  · next hbitmap =>
    apply obeys_os_bind
    intro deleted hdeleted
    obtain rfl : deleted = true := hdeleted
    exact ⟨holdings { renderer with bitmap := nullptr }, by simp [audit, holdings, hbitmap],
      Program.obeys_pure ⟨rfl, rfl⟩⟩

theorem obeys_deleteMemoryDC (renderer : Renderer) :
    renderer.deleteMemoryDC.Obeys ReleaseSucceeds audit (holdings renderer) fun ledger left ↦
      left = { renderer with memoryDC := nullptr } ∧ ledger = holdings left := by
  unfold Renderer.deleteMemoryDC
  split
  · next hnull => exact Program.obeys_pure ⟨by rw [← hnull], rfl⟩
  · next hmemory =>
    apply obeys_os_bind
    intro deleted hdeleted
    obtain rfl : deleted = true := hdeleted
    exact ⟨holdings { renderer with memoryDC := nullptr }, by simp [audit, holdings, hmemory],
      Program.obeys_pure ⟨rfl, rfl⟩⟩

theorem obeys_releaseWindowDC (renderer : Renderer)
    (htarget : renderer.windowDC ≠ nullptr → renderer.targetWindow ≠ nullptr) :
    renderer.releaseWindowDC.Obeys ReleaseSucceeds audit (holdings renderer) fun ledger left ↦
      left = { renderer with windowDC := nullptr } ∧ ledger = holdings left := by
  unfold Renderer.releaseWindowDC
  split
  · next hnull =>
    have hnull : renderer.windowDC = nullptr := by
      by_contra hdc
      exact hnull.elim hdc (htarget hdc)
    exact Program.obeys_pure ⟨by rw [← hnull], rfl⟩
  · next hdc =>
    apply obeys_os_bind
    intro released hreleased
    obtain rfl : released = true := hreleased
    rw [not_or] at hdc
    exact ⟨holdings { renderer with windowDC := nullptr }, by simp [audit, holdings, hdc.1],
      Program.obeys_pure ⟨rfl, rfl⟩⟩

/-- The clean-up leaves nothing behind, and the renderer is as the constructor made it. -/
theorem obeys_cleanup {renderer : Renderer} (hnested : Nested renderer) :
    renderer.cleanup.Obeys ReleaseSucceeds audit (holdings renderer) fun ledger left ↦
      left = .new ∧ ledger = .empty := by
  apply (obeys_deleteBitmap renderer).bind
  rintro _ _ ⟨rfl, rfl⟩
  apply (obeys_deleteMemoryDC _).bind
  rintro _ _ ⟨rfl, rfl⟩
  apply (obeys_releaseWindowDC { renderer with bitmap := nullptr, memoryDC := nullptr }
    hnested.targetWindow_of_windowDC).bind
  rintro _ _ ⟨rfl, rfl⟩
  exact Program.obeys_pure ⟨rfl, rfl⟩

/-! ## Acquiring -/

/-- How `Initialize` ends: with both contexts of the new window, or without any handle, or with
nothing changed. -/
def Initialized (before : Renderer) (hwnd : Hwnd) (ready : Bool) (after : Renderer) : Prop :=
  if ready then
    after.targetWindow = hwnd ∧ after.windowDC ≠ nullptr ∧ after.memoryDC ≠ nullptr
  else
    after = before ∨
      after.windowDC = nullptr ∧ after.memoryDC = nullptr ∧ after.bitmap = nullptr

theorem obeys_initializeFor {renderer : Renderer} (hnested : Nested renderer) (hwnd : Hwnd) :
    (renderer.initializeFor hwnd).Obeys ReleaseSucceeds audit (holdings renderer)
      fun ledger result ↦ Balanced ledger result.2 ∧ Initialized renderer hwnd result.1 result.2 := by
  unfold Renderer.initializeFor
  split
  · exact Program.obeys_pure ⟨⟨rfl, hnested⟩, .inl rfl⟩
  next hne =>
  apply obeys_os_bind
  intro known _
  refine ⟨holdings renderer, rfl, ?_⟩
  split
  · exact Program.obeys_pure ⟨⟨rfl, hnested⟩, .inl rfl⟩
  apply (obeys_cleanup hnested).bind
  rintro _ _ ⟨rfl, rfl⟩
  apply obeys_os_bind
  intro windowDC _
  by_cases hdc : windowDC = nullptr
  · refine ⟨.empty, by simp [audit, hdc], ?_⟩
    rw [if_pos hdc]
    refine Program.obeys_pure ⟨⟨by simp [holdings, hdc, Renderer.new, Ledger.empty], ?_⟩,
      .inr ⟨hdc, rfl, rfl⟩⟩
    constructor <;> simp [hdc, Renderer.new]
  refine ⟨⟨[(hwnd, windowDC)], [], []⟩, by simp [audit, hdc, Ledger.empty], ?_⟩
  rw [if_neg hdc]
  apply obeys_os_bind
  intro memoryDC _
  by_cases hmemory : memoryDC = nullptr
  · -- the context of the window goes back before the failure is reported
    refine ⟨⟨[(hwnd, windowDC)], [], []⟩, by simp [audit, Ledger.HasDC, hmemory], ?_⟩
    rw [if_pos hmemory]
    apply obeys_os_bind
    intro released hreleased
    obtain rfl : released = true := hreleased
    refine ⟨.empty, by simp [audit, Ledger.empty], Program.obeys_pure ⟨⟨?_, ?_⟩, .inr ⟨rfl, hmemory, rfl⟩⟩⟩
    · simp [holdings, hmemory, Renderer.new, Ledger.empty]
    · constructor <;> simp [hmemory, Renderer.new]
  refine ⟨⟨[(hwnd, windowDC)], [memoryDC], []⟩, by simp [audit, Ledger.HasDC, hmemory], ?_⟩
  rw [if_neg hmemory]
  have hfront : (Renderer.bringToFront hwnd).Obeys ReleaseSucceeds audit
      ⟨[(hwnd, windowDC)], [memoryDC], []⟩ fun last _ ↦ last = ⟨[(hwnd, windowDC)], [memoryDC], []⟩ :=
    (Renderer.rearranges_bringToFront hwnd).obeys ignores_rearranging
  apply hfront.bind
  rintro _ _ rfl
  refine Program.obeys_pure ⟨⟨by simp [holdings, hdc, hmemory, Renderer.new], ?_⟩, rfl, hdc, hmemory⟩
  constructor <;> simp [hdc, hmemory, hne]

/-- A new bitmap of the current contexts; the contexts themselves stay. -/
theorem obeys_createCompatibleBitmap {renderer : Renderer} (hnested : Nested renderer)
    (width height : UInt64) :
    (renderer.createCompatibleBitmap width height).Obeys ReleaseSucceeds audit (holdings renderer)
      fun ledger result ↦ Balanced ledger result.2 ∧ (result.1 = true → result.2.bitmap ≠ nullptr) := by
  unfold Renderer.createCompatibleBitmap
  split
  · exact Program.obeys_pure ⟨⟨rfl, hnested⟩, by simp⟩
  next hdcs =>
  obtain ⟨hdc, hmemory⟩ := not_or.1 hdcs
  split
  · next hcached => exact Program.obeys_pure ⟨⟨rfl, hnested⟩, fun _ ↦ hcached.1⟩
  apply (obeys_deleteBitmap renderer).bind
  rintro _ _ ⟨rfl, rfl⟩
  apply obeys_os_bind
  intro bitmap _
  by_cases hbitmap : bitmap = nullptr
  · refine ⟨holdings { renderer with bitmap := nullptr },
      by simp [audit, Ledger.HasDC, holdings, hdc, hbitmap], ?_⟩
    rw [if_pos hbitmap, hbitmap]
    refine Program.obeys_pure ⟨⟨rfl, ?_⟩, by simp⟩
    constructor <;> simp [hdc, hnested.targetWindow_of_windowDC hdc]
  · refine ⟨holdings { renderer with bitmap }, by simp [audit, Ledger.HasDC, holdings, hdc, hbitmap], ?_⟩
    rw [if_neg hbitmap]
    apply obeys_os_bind
    intro previous _
    refine ⟨holdings { renderer with bitmap },
      by simp [audit, Ledger.HasDC, holdings, hmemory, hbitmap], Program.obeys_pure ⟨⟨rfl, ?_⟩, ?_⟩⟩
    · constructor <;> simp [hdc, hmemory, hnested.targetWindow_of_windowDC hdc]
    · intro _
      exact hbitmap

/-! ## Drawing -/

/-- Drawing acquires nothing beyond the bitmap, and every handle it draws with is live. -/
theorem obeys_renderImageFrame {renderer : Renderer} (hnested : Nested renderer) (imageData : Bytes)
    (width height : UInt64) :
    (renderer.renderImageFrame imageData width height).Obeys ReleaseSucceeds audit
      (holdings renderer) fun ledger result ↦ Balanced ledger result.2 := by
  unfold Renderer.renderImageFrame
  split
  · exact Program.obeys_pure ⟨rfl, hnested⟩
  apply (obeys_createCompatibleBitmap hnested width height).bind
  rintro _ ⟨created, renderer⟩ ⟨⟨rfl, hnested⟩, hcreated⟩
  cases created with
  | false => exact Program.obeys_pure ⟨rfl, hnested⟩
  | true =>
    have hbitmap : renderer.bitmap ≠ nullptr := hcreated rfl
    have hmemory : renderer.memoryDC ≠ nullptr := hnested.memoryDC_of_bitmap hbitmap
    have hdc : renderer.windowDC ≠ nullptr := hnested.windowDC_of_memoryDC hmemory
    apply obeys_os_bind
    intro copied _
    refine ⟨holdings renderer, if_pos ⟨hasDC_windowDC hdc, mem_bitmaps hbitmap⟩, ?_⟩
    split
    · exact Program.obeys_pure ⟨rfl, hnested⟩
    apply obeys_os_bind
    intro rect _
    refine ⟨holdings renderer, rfl, ?_⟩
    apply obeys_os_bind
    intro mode _
    refine ⟨holdings renderer, if_pos (hasDC_windowDC hdc), ?_⟩
    apply obeys_os_bind
    intro origin _
    refine ⟨holdings renderer, if_pos (hasDC_windowDC hdc), ?_⟩
    apply obeys_os_bind
    intro success _
    exact ⟨holdings renderer, if_pos ⟨hasDC_windowDC hdc, hasDC_memoryDC hmemory⟩,
      Program.obeys_pure ⟨rfl, hnested⟩⟩

theorem obeys_clear (renderer : Renderer) :
    renderer.clear.Obeys ReleaseSucceeds audit (holdings renderer) fun ledger _ ↦
      ledger = holdings renderer := by
  unfold Renderer.clear
  split
  · next hdraws =>
    apply obeys_os_bind
    intro rect _
    refine ⟨holdings renderer, rfl, ?_⟩
    apply obeys_os_bind
    intro brush _
    refine ⟨holdings renderer, rfl, ?_⟩
    apply obeys_os_bind
    intro filled _
    exact ⟨holdings renderer, if_pos (hasDC_windowDC hdraws.1), Program.obeys_pure rfl⟩
  · exact Program.obeys_pure rfl

/-! ## Runs -/

theorem obeys_perform {ledger : Ledger} {renderer : Renderer} (h : Balanced ledger renderer)
    (operation : Operation) :
    (operation.perform renderer).Obeys ReleaseSucceeds audit ledger fun last result ↦
      Balanced last result.2 := by
  obtain ⟨rfl, hnested⟩ := h
  cases operation with
  | initializeFor hwnd =>
    apply (obeys_initializeFor hnested hwnd).bind
    rintro _ ⟨ready, renderer⟩ ⟨hbalanced, -⟩
    exact Program.obeys_pure hbalanced
  | renderImageFrame imageData width height | renderVideoFrame imageData width height =>
    apply (obeys_renderImageFrame hnested imageData width height).bind
    intro ledger result hbalanced
    exact Program.obeys_pure hbalanced
  | clear =>
    apply (obeys_clear renderer).bind
    rintro _ _ rfl
    exact Program.obeys_pure ⟨rfl, hnested⟩

theorem balanced_run {history : List Performed} {renderer : Renderer}
    (hrun : machine.Run history renderer)
    (hreleases : ∀ event ∈ calls history, ReleaseSucceeds event) :
    ∃ ledger, audit.follow .empty (calls history) = some ledger ∧ Balanced ledger renderer :=
  follow_calls Balanced ⟨rfl, nested_new⟩ (fun _ _ operation hbalanced ↦
    obeys_perform hbalanced operation) hrun hreleases

theorem releaseSucceeds_granting (call : Call) : ReleaseSucceeds ⟨call, granting call⟩ := by
  cases call with
  | releaseDC hwnd dc | deleteDC dc | deleteObject bitmap => rfl
  | _ => exact trivial

/-- In every run, whatever fails: the audit lets every call pass, the handles that are live are
those the renderer's fields name, each of them held together with those it was made from; a further
`Initialize` ends with both contexts of its window, with no handle, or with nothing changed; and the
destructor leaves nothing alive. -/
theorem handles_accounted (history : List Performed) (renderer : Renderer)
    (hrun : machine.Run history renderer)
    (hreleases : ∀ event ∈ calls history, ReleaseSucceeds event) :
    audit.follow .empty (calls history) = some (holdings renderer) ∧
    Nested renderer ∧
    (∀ hwnd trace ready after, (renderer.initializeFor hwnd).Runs trace (ready, after) →
      (∀ event ∈ trace, ReleaseSucceeds event) →
      Initialized renderer hwnd ready after ∧
        audit.follow (holdings renderer) trace = some (holdings after)) ∧
    (∀ trace, (destroy renderer).Runs trace () → (∀ event ∈ trace, ReleaseSucceeds event) →
      audit.follow .empty (calls history ++ trace) = some .empty) := by
  obtain ⟨ledger, hledger, rfl, hnested⟩ := balanced_run hrun hreleases
  refine ⟨hledger, hnested, ?_, ?_⟩
  · intro hwnd trace ready after hruns hreleases'
    obtain ⟨ledger, hledger', ⟨rfl, -⟩, hinitialized⟩ :=
      obeys_initializeFor hnested hwnd trace (ready, after) hruns hreleases'
    exact ⟨hinitialized, hledger'⟩
  · intro trace hruns hreleases'
    have hdestroy : (destroy renderer).Obeys ReleaseSucceeds audit (holdings renderer)
        fun ledger _ ↦ ledger = .empty := by
      apply (obeys_cleanup hnested).bind
      rintro _ _ ⟨-, rfl⟩
      exact Program.obeys_pure rfl
    obtain ⟨_, hledger', rfl⟩ := hdestroy trace () hruns hreleases'
    calc
      _ = (audit.follow .empty (calls history)).bind fun next ↦ audit.follow next trace :=
        audit.follow_append _ _ _
      _ = _ := by rw [hledger, Option.bind_some, hledger']

/-- One frame on a system that grants every request. -/
theorem handles_accounted_frame :
    ∃ history renderer, machine.Run history renderer ∧ history.length = 2 ∧
      renderer.bitmap = 4 ∧ audit.follow .empty (calls history) = some (holdings renderer) := by
  have hrun := run_servedAll granting [.initializeFor 1, .renderImageFrame [0, 0, 0, 0] 1 1]
  refine ⟨_, _, hrun, rfl, rfl, (handles_accounted _ _ hrun ?_).1⟩
  exact forall_mem_servedAll granting .new releaseSucceeds_granting _

end WindowCaster.Server.HandleAccounting
