import WindowCaster.Server.PixelReads

/-!
# What a status tells about the calls

A request to draw is answered by one of four statuses. Which one can be read off the calls that the
server made for it: how often it asked whether the target is a window, whether it came to draw, and
whether `StretchBlt` succeeded. It only comes to `StretchBlt` after `SetDIBits` has taken lines of
the picture.
-/

namespace WindowCaster.Server.Diagnosis

open Foundation.Interaction Foundation.Text Win32
open Protocol.Messages WindowManagement Rendering Handling PixelReads

/-! ## Reading the calls -/

/-- The question is asked once by `IsWindowValid` and once by `Initialize`. -/
def asksForWindow : Event Os → Bool
  | ⟨.isWindow _, _⟩ => true
  | _ => false

/-- The first calls of a frame and of `Clear`. -/
def startsDrawing : Event Os → Bool
  | ⟨.createCompatibleBitmap _ _ _, _⟩ | ⟨.getClientRect _, _⟩ => true
  | _ => false

def stretches : Event Os → Bool
  | ⟨.stretchBlt _ _ _ _ _ _ _ _ _ _, stretched⟩ => stretched
  | _ => false

/-- `SetDIBits` was given these pixels from the first line on, and took lines of them. -/
def takes (read : PixelRead) : Event Os → Bool
  | ⟨.setDIBits _ _ start lines bits header, copied⟩ =>
    start = 0 ∧ (⟨lines, bits, header⟩ : PixelRead) = read ∧ copied ≠ 0
  | _ => false

/-- `SetDIBits` took lines of these pixels, and a `StretchBlt` behind it succeeded. -/
def shows (read : PixelRead) : List (Event Os) → Bool
  | [] => false
  | event :: rest => takes read event && rest.any stretches || shows read rest

/-- The status of a request that came to draw. -/
def drawingStatus (request : Request) (trace : List (Event Os)) : Status :=
  match request with
  | .stopRender _ => ⟨true, []⟩
  | .renderCommand _ | .getWindowList =>
    if trace.any stretches then ⟨true, []⟩ else ⟨false, utf8 "Render failed"⟩

def status (request : Request) (trace : List (Event Os)) : Status :=
  if trace.any startsDrawing then drawingStatus request trace
  else if 2 ≤ trace.countP asksForWindow then ⟨false, utf8 "Renderer initialization failed"⟩
  else ⟨false, utf8 "Invalid window handle"⟩

/-- What is shown is shown behind the calls that read no pixels. -/
theorem shows_append {read : PixelRead} {first : List (Event Os)} (h : pixelReads first = [])
    (second : List (Event Os)) : shows read (first ++ second) = shows read second := by
  induction first with
  | nil => rfl
  | cons event first ih =>
    obtain ⟨hevent, hfirst⟩ := List.append_eq_nil_iff.1 ((pixelReads_cons event first).symm.trans h)
    have htakes : takes read event = false := by
      obtain ⟨call, answer⟩ := event
      cases call <;> simp_all [takes, pixelRead]
    rw [List.cons_append, shows, htakes, Bool.false_and, Bool.false_or, ih hfirst]

/-- Requests to draw that carry all that is needed. -/
def Complete : Request → Prop
  | .getWindowList => False
  | .renderCommand command => command.content.isSome
  | .stopRender _ => True

/-! ## The functions -/

/-- Nothing is drawn, and the question is asked this often. -/
def Asks (trace : List (Event Os)) (count : ℕ) : Prop :=
  trace.any startsDrawing = false ∧ trace.any stretches = false ∧ trace.countP asksForWindow = count

theorem not_told_of_housekeeping {event : Event Os} (h : Renderer.Housekeeping event) :
    startsDrawing event = false ∧ stretches event = false ∧ asksForWindow event = false := by
  obtain ⟨call, answer⟩ := event
  cases call <;> simp_all [Renderer.Housekeeping, startsDrawing, stretches, asksForWindow]

theorem asks_of_housekeeping {trace : List (Event Os)}
    (h : ∀ event ∈ trace, Renderer.Housekeeping event) : Asks trace 0 := by
  refine ⟨?_, ?_, ?_⟩
  · simpa using fun event hevent ↦ (not_told_of_housekeeping (h event hevent)).1
  · simpa using fun event hevent ↦ (not_told_of_housekeeping (h event hevent)).2.1
  · simpa using fun event hevent ↦ (not_told_of_housekeeping (h event hevent)).2.2

theorem Asks.append {first second : List (Event Os)} {count count' : ℕ} (h : Asks first count)
    (h' : Asks second count') : Asks (first ++ second) (count + count') := by
  obtain ⟨hdraws, hstretches, rfl⟩ := h
  obtain ⟨hdraws', hstretches', rfl⟩ := h'
  refine ⟨?_, ?_, List.countP_append⟩
  · rw [List.any_append, hdraws, hdraws', Bool.or_false]
  · rw [List.any_append, hstretches, hstretches', Bool.or_false]

theorem Asks.cons {event : Event Os} {trace : List (Event Os)} {count count' : ℕ}
    (h : Asks [event] count) (h' : Asks trace count') : Asks (event :: trace) (count + count') :=
  h.append h'

theorem ensures_isWindowValid (hwnd : Hwnd) : (isWindowValid hwnd).Ensures fun trace valid ↦
    ∃ count, Asks trace count ∧ count ≤ 1 ∧ (valid = true → count = 1 ∧ hwnd ≠ nullptr) := by
  simp only [isWindowValid, Program.ensures_ite, Program.ensures_bind, ensures_os,
    Program.ensures_pure]
  simp +contextual [Asks, startsDrawing, stretches, asksForWindow, List.countP_cons]

theorem ensures_initializeFor (renderer : Renderer) {hwnd : Hwnd} (hne : hwnd ≠ nullptr) :
    (renderer.initializeFor hwnd).Ensures fun trace result ↦
      Asks trace 1 ∧ (result.1 = true → Ready result.2 hwnd) := by
  simp only [Renderer.initializeFor, Program.ensures_ite, Program.ensures_bind, ensures_os,
    Program.ensures_pure]
  refine ⟨fun hnull ↦ absurd hnull hne, fun _ known ↦ ⟨fun _ ↦ ⟨⟨rfl, rfl, rfl⟩, by simp⟩, fun _ ↦ ?_⟩⟩
  refine ((Renderer.keeps_cleanup renderer).and (Renderer.ensures_cleanup renderer)).mono ?_
  rintro cleaning cleaned ⟨hcleaning, hbitmap⟩ windowDC
  have hcleaning := asks_of_housekeeping hcleaning
  refine ⟨fun hdc ↦ ?_, fun hdc memoryDC ↦ ⟨fun hmemory released ↦ ?_, fun hmemory ↦ ?_⟩⟩
  · exact ⟨.cons ⟨rfl, rfl, rfl⟩ (hcleaning.append ⟨rfl, rfl, rfl⟩), by simp⟩
  · exact ⟨.cons ⟨rfl, rfl, rfl⟩ (hcleaning.append ⟨rfl, rfl, rfl⟩), by simp⟩
  · refine Program.Ensures.mono (Renderer.keeps_bringToFront hwnd) fun bringing _ hbringing ↦ ?_
    have hbringing := asks_of_housekeeping hbringing
    refine ⟨?_, fun _ ↦ ⟨rfl, hdc, hmemory, hbitmap⟩⟩
    rw [List.append_nil]
    exact .cons ⟨rfl, rfl, rfl⟩
      (hcleaning.append (.cons ⟨rfl, rfl, rfl⟩ (.cons ⟨rfl, rfl, rfl⟩ hbringing)))

/-- What happens before anything is drawn: a failure is reported as such. -/
theorem ensures_validateAndInitialize (server : WindowCasterServer) (hwnd : Hwnd)
    (initial : Status) (request : Request) :
    (server.validateAndInitialize hwnd initial).Ensures fun trace result ↦
      (∃ count, Asks trace count) ∧
        (result.1 = true → Ready result.2.2.renderer hwnd ∧ hwnd ≠ nullptr ∧ result.2.1 = initial) ∧
        (result.1 = false → result.2.1 = status request trace) := by
  refine Program.ensures_bind.2 ((ensures_isWindowValid hwnd).mono ?_)
  rintro checking valid ⟨count, hchecking, hcount, hvalid⟩
  cases valid with
  | false =>
    refine Program.ensures_pure.2 ⟨⟨count, by simpa using hchecking⟩, by simp, fun _ ↦ ?_⟩
    obtain ⟨hdraws, -, rfl⟩ := hchecking
    have hfew : ¬ 2 ≤ checking.countP asksForWindow := by omega
    rw [List.append_nil, status, hdraws, if_neg Bool.false_ne_true, if_neg hfew]
  | true =>
    obtain ⟨rfl, hne⟩ := hvalid rfl
    refine Program.ensures_bind.2 ((ensures_initializeFor server.renderer hne).mono ?_)
    rintro moving ⟨ready, renderer⟩ ⟨hmoving, hready⟩
    have hboth := hchecking.append hmoving
    cases ready with
    | false =>
      refine Program.ensures_pure.2 ⟨⟨2, by simpa using hboth⟩, by simp, fun _ ↦ ?_⟩
      obtain ⟨hdraws, -, hcount⟩ := hboth
      rw [List.append_nil, status, hdraws, if_neg Bool.false_ne_true, hcount, if_pos (by decide)]
    | true =>
      refine Program.ensures_pure.2 ⟨⟨2, by simpa using hboth⟩, fun _ ↦ ⟨hready rfl, hne, rfl⟩, by simp⟩

/-- A frame starts to draw, and succeeds if `StretchBlt` does, which comes behind `SetDIBits`. -/
theorem ensures_renderImageFrame {renderer : Renderer} {hwnd : Hwnd} (hready : Ready renderer hwnd)
    (hne : hwnd ≠ nullptr) (imageData : Bytes) (width height : UInt64) :
    (renderer.renderImageFrame imageData width height).Ensures fun trace result ↦
      trace.any startsDrawing = true ∧ trace.any stretches = result.1 ∧
        shows ⟨height.toUInt32, imageData, Renderer.bmiHeader width height⟩ trace = result.1 := by
  obtain ⟨htarget, hdc, hmemory, hbitmap⟩ := hready
  simp only [Renderer.renderImageFrame, Renderer.createCompatibleBitmap, Renderer.deleteBitmap, hdc,
    hmemory, htarget, hne, hbitmap, or_self, if_false, ne_eq, not_true_eq_false, false_and, if_true,
    pure_bind, Program.ensures_ite, Program.ensures_bind, ensures_os, Program.ensures_pure]
  simp +contextual [startsDrawing, stretches, takes, shows]

theorem ensures_clear {renderer : Renderer} {hwnd : Hwnd} (hready : Ready renderer hwnd)
    (hne : hwnd ≠ nullptr) : renderer.clear.Ensures fun trace _ ↦ trace.any startsDrawing = true := by
  obtain ⟨htarget, hdc, -, -⟩ := hready
  simp only [Renderer.clear, hdc, htarget, hne, ne_eq, not_false_eq_true, and_self, if_true,
    Program.ensures_bind, ensures_os, Program.ensures_pure]
  simp [startsDrawing]

/-! ## The requests -/

/-- The response is the status that the calls tell, and nothing is shown without being drawn. -/
def Reported (request : Request) (trace : List (Event Os)) (response : ServerResponse Bytes) :
    Prop :=
  response = ⟨some (status request trace), none⟩ ∧
    (trace.any startsDrawing = false → trace.any stretches = false)

/-- What both handlers have in common. -/
theorem ensures_validated (server : WindowCasterServer) (hwnd : Hwnd) (initial : Status)
    (request : Request)
    {rest : Bool × Status × WindowCasterServer →
      Program Os (ServerResponse Bytes × WindowCasterServer)}
    (hreport : ∀ status server, rest (false, status, server) = pure (⟨some status, none⟩, server))
    (hdraw : ∀ server, Ready server.renderer hwnd → hwnd ≠ nullptr →
      (rest (true, initial, server)).Ensures fun drawing result ↦
        drawing.any startsDrawing = true ∧
          ∀ before : List (Event Os), before.any stretches = false →
            result.1 = ⟨some (drawingStatus request (before ++ drawing)), none⟩) :
    (server.validateAndInitialize hwnd initial >>= rest).Ensures fun trace result ↦
      Reported request trace result.1 := by
  refine Program.ensures_bind.2 ((ensures_validateAndInitialize server hwnd initial request).mono ?_)
  rintro before ⟨ready, reported, server⟩ ⟨⟨count, hbefore⟩, hready, hfailed⟩
  cases ready with
  | false =>
    rw [hreport]
    refine Program.ensures_pure.2 ⟨by rw [List.append_nil, ← hfailed rfl], fun _ ↦ ?_⟩
    rw [List.append_nil]
    exact hbefore.2.1
  | true =>
    obtain ⟨hmoved, hne, rfl⟩ := hready rfl
    refine Program.Ensures.mono (hdraw server hmoved hne) ?_
    rintro drawing result ⟨hdraws, hresult⟩
    have hany : (before ++ drawing).any startsDrawing = true := by
      rw [List.any_append, hdraws, Bool.or_true]
    refine ⟨?_, fun hnone ↦ absurd hany (ne_true_of_eq_false hnone)⟩
    rw [hresult before hbefore.2.1, status, if_pos hany]

theorem ensures_handleStopRender (server : WindowCasterServer) (command : StopRender) :
    (server.handleStopRender command).Ensures fun trace result ↦
      Reported (.stopRender command) trace result.1 := by
  apply ensures_validated server _ _ _ fun _ _ ↦ rfl
  intro server hmoved hne
  refine Program.ensures_bind.2 ((ensures_clear hmoved hne).mono fun drawing _ hdraws ↦ ?_)
  refine Program.ensures_pure.2 ⟨?_, fun _ _ ↦ rfl⟩
  rwa [List.append_nil]

theorem ensures_handleRenderCommand (server : WindowCasterServer) {command : RenderCommand}
    (hcontent : command.content.isSome) :
    (server.handleRenderCommand command).Ensures fun trace result ↦
      Reported (.renderCommand command) trace result.1 := by
  apply ensures_validated server _ _ _ fun _ _ ↦ rfl
  intro server hmoved hne
  have hframe (imageData : Bytes) (width height : UInt64) :
      (server.renderer.renderImageFrame imageData width height >>= fun frame ↦
        pure ((⟨some (WindowCasterServer.handleRenderCommand.finish ⟨false, []⟩ frame.1), none⟩,
          { server with renderer := frame.2 }) : ServerResponse Bytes × WindowCasterServer)).Ensures
        fun drawing result ↦ drawing.any startsDrawing = true ∧
          ∀ before : List (Event Os), before.any stretches = false →
            result.1 = ⟨some (drawingStatus (.renderCommand command) (before ++ drawing)), none⟩ := by
    refine Program.ensures_bind.2 ((ensures_renderImageFrame hmoved hne imageData width height).mono ?_)
    rintro drawing ⟨drawn, renderer⟩ ⟨hdraws, hstretches, -⟩
    refine Program.ensures_pure.2 ⟨by rwa [List.append_nil], fun before hbefore ↦ ?_⟩
    rw [List.append_nil, drawingStatus, List.any_append, hbefore, hstretches, Bool.false_or]
    cases drawn <;> rfl
  obtain ⟨hwnd, content⟩ := command
  rcases content with _ | image | video
  · cases hcontent
  · exact hframe _ _ _
  · exact hframe _ _ _

/-- `StretchBlt` only succeeds behind a `SetDIBits` that has taken lines of the picture. -/
theorem shows_handleRenderCommand (server : WindowCasterServer) {command : RenderCommand}
    {content : Content} (hcontent : command.content = some content) :
    (server.handleRenderCommand command).Ensures fun trace _ ↦
      trace.any stretches = shows (Content.read content) trace := by
  have hvalidated := (ensures_validateAndInitialize server command.targetWindow ⟨false, []⟩
    (.renderCommand command)).and
      (PixelReads.ensures_validateAndInitialize server command.targetWindow ⟨false, []⟩)
  refine Program.ensures_bind.2 (hvalidated.mono ?_)
  rintro before ⟨ready, status, server⟩ ⟨⟨⟨count, -, hstretches, -⟩, hready, -⟩, hreads, -⟩
  cases ready with
  | false =>
    refine Program.ensures_pure.2 ?_
    rw [shows_append hreads, List.append_nil, hstretches]
    rfl
  | true =>
    obtain ⟨hmoved, hne, -⟩ := hready rfl
    have hframe (after : Bool × Renderer → ServerResponse Bytes × WindowCasterServer) :
        (server.renderer.renderImageFrame content.data content.width.toUInt64
          content.height.toUInt64 >>= fun frame ↦ pure (after frame)).Ensures fun drawing _ ↦
            (before ++ drawing).any stretches = shows (Content.read content) (before ++ drawing) := by
      refine Program.ensures_bind.2 ((ensures_renderImageFrame hmoved hne _ _ _).mono ?_)
      rintro drawing frame ⟨-, hdrawn, hshows⟩
      refine Program.ensures_pure.2 ?_
      rw [UInt32.toUInt32_toUInt64] at hshows
      rw [List.append_nil, List.any_append, hstretches, Bool.false_or, shows_append hreads, hdrawn]
      exact hshows.symm
    obtain ⟨hwnd, _⟩ := command
    obtain rfl := hcontent
    cases content with
    | image image => exact hframe _
    | video video => exact hframe _

/-- Whatever the calls return: the response to a complete request to draw is the status that the
calls tell. -/
theorem reported_of_dispatch {server server' : WindowCasterServer} {request : Request}
    (hcomplete : Complete request) {trace : List (Event Os)} {response : ServerResponse Bytes}
    (hruns : (server.dispatch ⟨some request⟩).Runs trace (response, server')) :
    Reported request trace response := by
  cases request with
  | getWindowList => exact hcomplete.elim
  | renderCommand command => exact ensures_handleRenderCommand server hcomplete _ _ hruns
  | stopRender command => exact ensures_handleStopRender server command _ _ hruns

/-- A picture is a success exactly if it has been shown. -/
theorem success_status {command : RenderCommand} {trace : List (Event Os)}
    (hshown : trace.any startsDrawing = false → trace.any stretches = false) :
    (status (.renderCommand command) trace).success = trace.any stretches := by
  rw [status]
  cases hdraws : trace.any startsDrawing with
  | true =>
    rw [if_pos rfl, drawingStatus]
    cases trace.any stretches <;> rfl
  | false =>
    rw [if_neg Bool.false_ne_true, hshown hdraws]
    split <;> rfl

end WindowCaster.Server.Diagnosis
