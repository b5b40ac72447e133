import WindowCaster.Server.Independence
import WindowCaster.Server.Replies

/-!
# What was in memory before

`GetClientRect`, `GetWindowTextW` and `GetClassNameW` leave the buffer as it was when they fail, and
the server does not look at their results where it uses the buffers. The sizes it then draws with and
the texts it then lists are whatever was in memory. A request is therefore answered independently of
the earlier ones exactly if none of these calls has failed for it.
-/

namespace WindowCaster.Server.Leftovers

open Foundation.Interaction Foundation.Coupling Foundation.Text Foundation.Transition
open Win32 Protocol.Messages Protocol.Readers WindowManagement Rendering Handling Independence Replies

/-! ## Rectangles -/

/-- The two traces cannot be told apart by their answers, but by what is drawn. -/
structure Discloses (trace trace' : List (Event Os)) : Prop where
  alike (names : Names) : byName.Alike names (byName.visible trace) (byName.visible trace')
  documented : (∀ event ∈ trace, Documented event) → ∀ event ∈ trace', Documented event
  draws (names : Names) : ¬ List.Forall₂ (SameCall names) (drawings trace) (drawings trace')

theorem drawings_append (first second : List (Event Os)) :
    drawings (first ++ second) = drawings first ++ drawings second := by
  simp [drawings]

/-- What happens before the two traces part does not matter. -/
theorem Discloses.after {trace trace' : List (Event Os)} (h : Discloses trace trace')
    (before : List (Event Os)) : Discloses (before ++ trace) (before ++ trace') where
  alike names := by
    rw [Matching.visible_append, Matching.visible_append]
    exact .append (List.forall₂_same.2 fun _ _ ↦ rfl) h.alike
  documented hos := by
    rw [List.forall_mem_append] at hos ⊢
    exact ⟨hos.1, h.documented hos.2⟩
  draws names hdrawings := by
    rw [drawings_append, drawings_append] at hdrawings
    have hrest := List.forall₂_drop_append _ _ _ hdrawings
    rw [List.drop_left] at hrest
    exact h.draws names hrest

/-- The program makes no list, and a rectangle that it does not get shows through. -/
def Exposed {α : Type} (program : Program Os α) : Prop :=
  program.Ensures fun trace result ↦ (∀ event ∈ trace, Unlisted event) ∧
    ((∀ event ∈ trace, Measured event) ∨ ∃ trace', program.Runs trace' result ∧ Discloses trace trace')

/-- The calls other than those for a rectangle or a class name. -/
def Settled (event : Event Os) : Prop :=
  match event.call with
  | .getClientRect _ | .getClassName _ _ => False
  | _ => True

theorem Settled.unlisted {event : Event Os} (h : Settled event) : Unlisted event := by
  obtain ⟨call, answer⟩ := event
  cases call <;> simp_all [Settled, Unlisted]

theorem Settled.measured {event : Event Os} (h : Settled event) : Measured event := by
  obtain ⟨call, answer⟩ := event
  cases call <;> simp_all [Settled, Measured]

section Rules

variable {α β : Type}

theorem exposed_of_settled {program : Program Os α} (h : program.Keeps Settled) : Exposed program :=
  Program.Ensures.mono h fun _ _ hsettled ↦
    ⟨fun event hevent ↦ (hsettled event hevent).unlisted,
      .inl fun event hevent ↦ (hsettled event hevent).measured⟩

theorem exposed_pure (value : α) : Exposed (pure value) :=
  exposed_of_settled (Program.keeps_pure value)

theorem exposed_bind {program : Program Os α} {after : α → Program Os β}
    (h : program.Keeps Settled) (hafter : ∀ value, Exposed (after value)) :
    Exposed (program >>= after) := by
  refine Program.ensures_bind.2 fun first value hfirst second result hsecond ↦ ?_
  have hsettled := h first value hfirst
  obtain ⟨hunlisted, hrest⟩ := hafter value second result hsecond
  refine ⟨List.forall_mem_append.2
    ⟨fun event hevent ↦ (hsettled event hevent).unlisted, hunlisted⟩, ?_⟩
  obtain hmeasured | ⟨second', hsecond', hdiscloses⟩ := hrest
  · exact .inl (List.forall_mem_append.2
      ⟨fun event hevent ↦ (hsettled event hevent).measured, hmeasured⟩)
  · exact .inr ⟨first ++ second', Program.runs_bind.2 ⟨first, second', value, rfl, hfirst, hsecond'⟩,
      hdiscloses.after first⟩

theorem exposed_os_bind {call : Call} {after : call.Answer → Program Os β}
    (hcall : ∀ answer, Settled ⟨call, answer⟩) (hafter : ∀ answer, Exposed (after answer)) :
    Exposed (os call >>= after) :=
  exposed_bind (keeps_os.2 hcall) hafter

/-- What is only computed from the result changes nothing. -/
theorem Exposed.bind_pure {program : Program Os α} (h : Exposed program) (f : α → β) :
    Exposed (program >>= fun value ↦ pure (f value)) := by
  refine Program.ensures_bind.2 fun first value hfirst ↦ Program.ensures_pure.2 ?_
  rw [List.append_nil]
  obtain ⟨hunlisted, hmeasured | ⟨first', hfirst', hdiscloses⟩⟩ := h first value hfirst
  · exact ⟨hunlisted, .inl hmeasured⟩
  · refine ⟨hunlisted, .inr ⟨first', ?_, hdiscloses⟩⟩
    exact Program.runs_bind.2 ⟨first', [], value, (List.append_nil _).symm, hfirst', rfl, rfl⟩

/-- A rectangle shows through if the rest draws something else with another one. -/
theorem exposed_getClientRect_bind {hwnd : Hwnd} {after : Bool × Rect → Program Os β}
    (hafter : ∀ answer, (after answer).Keeps Settled)
    (h : ∀ rect trace result, (after (false, rect)).Runs trace result →
      ∃ rect' trace', (after (false, rect')).Runs trace' result ∧ Discloses trace trace') :
    Exposed (os (.getClientRect hwnd) >>= after) := by
  rintro _ result ⟨⟨success, rect⟩, rest, rfl, hrest⟩
  have hsettled := hafter _ rest result hrest
  refine ⟨List.forall_mem_cons.2 ⟨trivial, fun event hevent ↦ (hsettled event hevent).unlisted⟩, ?_⟩
  cases success with
  | true =>
    exact .inl (List.forall_mem_cons.2 ⟨rfl, fun event hevent ↦ (hsettled event hevent).measured⟩)
  | false =>
    obtain ⟨rect', rest', hrest', halike, hdocumented, hdraws⟩ := h rect rest result hrest
    refine .inr ⟨⟨.getClientRect hwnd, (false, rect')⟩ :: rest', ⟨_, _, rfl, hrest'⟩, ?_, ?_, hdraws⟩
    · exact fun names _ ↦ ⟨rfl, halike _⟩
    · intro hos
      exact List.forall_mem_cons.2 ⟨trivial, hdocumented (List.forall_mem_cons.1 hos).2⟩

end Rules

/-- A rectangle that is wider by one. -/
def wider (rect : Rect) : Rect := ⟨0, 0, rect.right - rect.left + 1, 0⟩

theorem width_wider_ne (rect : Rect) :
    (wider rect).right - (wider rect).left ≠ rect.right - rect.left := by
  simp [wider]

theorem settles_createCompatibleBitmap (renderer : Renderer) (width height : UInt64) :
    (renderer.createCompatibleBitmap width height).Keeps Settled := by
  have hdelete : renderer.deleteBitmap.Keeps Settled := by
    refine (Renderer.releases_deleteBitmap renderer).mono fun event h ↦ ?_
    obtain ⟨call, answer⟩ := event
    cases call <;> simp_all [Renderer.releasing, Settled]
  unfold Renderer.createCompatibleBitmap
  split
  · exact Program.keeps_pure _
  split
  · exact Program.keeps_pure _
  refine Program.keeps_bind hdelete fun _ ↦ keeps_os_bind (fun _ ↦ trivial) fun bitmap ↦ ?_
  split
  · exact Program.keeps_pure _
  · exact keeps_os_bind (fun _ ↦ trivial) fun _ ↦ Program.keeps_pure _

/-- The picture is stretched to the size of the rectangle. -/
theorem exposed_renderImageFrame (renderer : Renderer) (imageData : Bytes) (width height : UInt64) :
    Exposed (renderer.renderImageFrame imageData width height) := by
  unfold Renderer.renderImageFrame
  split
  · exact exposed_pure _
  apply exposed_bind (settles_createCompatibleBitmap renderer width height)
  rintro ⟨created, renderer⟩
  dsimp only
  split
  · exact exposed_pure _
  refine exposed_os_bind (fun _ ↦ trivial) fun copied ↦ ?_
  split
  · exact exposed_pure _
  refine exposed_getClientRect_bind (fun _ ↦ keeps_os_bind (fun _ ↦ trivial) fun _ ↦
    keeps_os_bind (fun _ ↦ trivial) fun _ ↦ keeps_os_bind (fun _ ↦ trivial) fun _ ↦
      Program.keeps_pure _) ?_
  rintro rect _ _ ⟨mode, _, rfl, origin, _, rfl, success, _, rfl, rfl, rfl⟩
  have hwidth : rect.right - rect.left ≠ (wider rect).right - (wider rect).left :=
    (width_wider_ne rect).symm
  refine ⟨wider rect, _, ⟨mode, _, rfl, origin, _, rfl, success, _, rfl, rfl, rfl⟩, ?_, ?_, ?_⟩
  · rintro names -
    refine ⟨rfl, fun _ ↦ ⟨rfl, fun hcall ↦ ?_⟩⟩
    exact absurd (Call.stretchBlt.inj hcall.1).2.2.2.1 hwidth
  · rintro -
    simp [Documented]
  · intro names hdrawings
    cases hdrawings with
    | cons hcall _ => exact absurd (Call.stretchBlt.inj hcall.1).2.2.2.1 hwidth

/-- The rectangle itself is filled. -/
theorem exposed_clear (renderer : Renderer) : Exposed renderer.clear := by
  unfold Renderer.clear
  split
  · refine exposed_getClientRect_bind (fun _ ↦ keeps_os_bind (fun _ ↦ trivial) fun _ ↦
      keeps_os_bind (fun _ ↦ trivial) fun _ ↦ Program.keeps_pure _) ?_
    rintro rect _ _ ⟨brush, _, rfl, filled, _, rfl, rfl, rfl⟩
    have hrect : rect ≠ wider rect := by
      intro hrect
      exact width_wider_ne rect (congrArg (fun rect ↦ rect.right - rect.left) hrect.symm)
    refine ⟨wider rect, _, ⟨brush, _, rfl, filled, _, rfl, rfl, rfl⟩, ?_, ?_, ?_⟩
    · rintro names -
      refine ⟨rfl, fun hcall ↦ ?_⟩
      exact absurd (Call.fillRect.inj hcall.1).2.1 hrect
    · rintro -
      simp [Documented]
    · intro names hdrawings
      cases hdrawings with
      | cons hcall _ => exact absurd (Call.fillRect.inj hcall.1).2.1 hrect
  · exact exposed_pure _

theorem settles_validateAndInitialize (server : WindowCasterServer) (hwnd : Hwnd) (status : Status) :
    (server.validateAndInitialize hwnd status).Keeps Settled := by
  have hvalid : (isWindowValid hwnd).Keeps Settled := by
    refine (checks_isWindowValid hwnd).mono fun event h ↦ ?_
    obtain ⟨call, answer⟩ := event
    cases call <;> simp_all [Checking, Settled]
  have hinitialize : (server.renderer.initializeFor hwnd).Keeps Settled := by
    refine (Renderer.keeps_initializeFor server.renderer hwnd).mono fun event h ↦ ?_
    obtain ⟨call, answer⟩ := event
    cases call <;> simp_all [Renderer.Initializing, Renderer.Housekeeping, Settled]
  apply Program.keeps_bind hvalid
  intro valid
  split
  · exact Program.keeps_pure _
  apply Program.keeps_bind hinitialize
  rintro ⟨ready, renderer⟩
  dsimp only
  split <;> exact Program.keeps_pure _

/-- Every request but that for a list. -/
theorem exposed_dispatch (server : WindowCasterServer) {request : ClientRequest}
    (hrequest : request.request ≠ some .getWindowList) : Exposed (server.dispatch request) := by
  obtain ⟨_ | _ | command | command⟩ := request
  · exact exposed_pure _
  · exact absurd rfl hrequest
  · apply exposed_bind (settles_validateAndInitialize _ _ _)
    rintro ⟨ready, status, server⟩
    dsimp only
    split
    · exact exposed_pure _
    split
    · exact (exposed_renderImageFrame _ _ _ _).bind_pure _
    · exact (exposed_renderImageFrame _ _ _ _).bind_pure _
    · exact exposed_pure _
  · apply exposed_bind (settles_validateAndInitialize _ _ _)
    rintro ⟨ready, status, server⟩
    dsimp only
    split
    · exact exposed_pure _
    · exact (exposed_clear _).bind_pure _

/-! ## Texts -/

section Texts

variable (units : List UInt16)

/-- The text with `units` in the buffer if the buffer has not been filled. -/
def refillText (text : WindowText) : WindowText := if text.count = 0 then ⟨0, units⟩ else text

def refill : Event Os → Event Os
  | ⟨.getWindowText hwnd maxCount, text⟩ => ⟨.getWindowText hwnd maxCount, refillText units text⟩
  | ⟨.getClassName hwnd maxCount, text⟩ => ⟨.getClassName hwnd maxCount, refillText units text⟩
  | event => event

def refillReading (reading : Reading) : Reading :=
  ⟨reading.handle, refillText units reading.title, refillText units reading.className⟩

theorem count_refillText (text : WindowText) : (refillText units text).count = text.count := by
  unfold refillText
  split
  · next hcount => exact hcount.symm
  · rfl

theorem filledText_refillText (text : WindowText) :
    filledText text = filledText (refillText units text) := by
  unfold refillText filledText
  split <;> simp_all

/-- Both texts in the buffers count as the same answer. -/
theorem sameAnswer_refill (event : Event Os) : byName.sameAnswer event (refill units event) := by
  obtain ⟨call, answer⟩ := event
  cases call <;> first
    | rfl
    | exact congrArg (Event.mk _) (filledText_refillText units answer)

theorem forall₂_refill (trace : List (Event Os)) :
    List.Forall₂ byName.sameAnswer (byName.visible trace)
      (byName.visible (trace.map (refill units))) := by
  have hcall (event : Event Os) : (refill units event).call = event.call := by
    obtain ⟨call, answer⟩ := event
    cases call <;> rfl
  simp only [Matching.visible, List.filter_map, Function.comp_def, hcall]
  exact List.forall₂_map_right_iff.2 (List.forall₂_same.2 fun event _ ↦ sameAnswer_refill units event)

variable {units}

theorem documented_refill (hunits : units.length ≤ 255) {event : Event Os} (h : Inspecting event)
    (hos : Documented event) : Documented (refill units event) := by
  obtain ⟨call, answer⟩ := event
  cases call with
  | getWindowText hwnd maxCount | getClassName hwnd maxCount =>
    obtain rfl : maxCount = 256 := h
    simp only [refill, Documented, refillText] at hos ⊢
    split <;> assumption
  | _ => exact hos

theorem readingsFrom_refill (title : WindowText) (trace : List (Event Os)) :
    readingsFrom (refillText units title) (trace.map (refill units)) =
      (readingsFrom title trace).map (refillReading units) := by
  induction trace generalizing title with
  | nil => rfl
  | cons event trace ih =>
    have htitle : lastTitle (refillText units title) (refill units event) =
        refillText units (lastTitle title event) := by
      obtain ⟨call, answer⟩ := event
      cases call <;> rfl
    have hreading : reading (refillText units title) (refill units event) =
        (reading title event).map (refillReading units) := by
      obtain ⟨call, answer⟩ := event
      cases call <;> rfl
    rw [List.map_cons, readingsFrom, readingsFrom, List.map_append, htitle, ih, hreading]
    cases reading title event <;> rfl

variable (units)

/-- The second program makes the same calls with the other texts in the buffers. -/
def Refills {α β : Type} (program : Program Os α) (program' : Program Os β) (post : α → β → Prop) :
    Prop :=
  program.Ensures fun trace result ↦
    ∃ result', program'.Runs (trace.map (refill units)) result' ∧ post result result'

section Rules

variable {units} {α α' β β' : Type} {post : α → α' → Prop}

theorem refills_pure {value : α} {value' : α'} (h : post value value') :
    Refills units (pure value) (pure value') post :=
  Program.ensures_pure.2 ⟨value', ⟨rfl, rfl⟩, h⟩

theorem Refills.bind {program : Program Os α} {program' : Program Os α'} {after : α → Program Os β}
    {after' : α' → Program Os β'} {last : β → β' → Prop} (h : Refills units program program' post)
    (hafter : ∀ value value', post value value' → Refills units (after value) (after' value') last) :
    Refills units (program >>= after) (program' >>= after') last := by
  refine Program.ensures_bind.2 fun first value hfirst second result hsecond ↦ ?_
  obtain ⟨value', hfirst', hpost⟩ := h first value hfirst
  obtain ⟨result', hsecond', hlast⟩ := hafter value value' hpost second result hsecond
  refine ⟨result', Program.runs_bind.2 ⟨_, _, value', ?_, hfirst', hsecond'⟩, hlast⟩
  rw [List.map_append]

/-- A call without a text has the same answer. -/
theorem refills_os_bind {call : Call} {after : call.Answer → Program Os α}
    {after' : call.Answer → Program Os α'}
    (hcall : ∀ answer : call.Answer, refill units ⟨call, answer⟩ = ⟨call, answer⟩)
    (h : ∀ answer, Refills units (after answer) (after' answer) post) :
    Refills units (os call >>= after) (os call >>= after') post := by
  have hos : Refills units (os call) (os call) fun answer answer' ↦ answer = answer' :=
    ensures_os.2 fun answer ↦ ⟨answer, runs_os.2 (congrArg (fun event ↦ [event]) (hcall answer)), rfl⟩
  refine hos.bind ?_
  rintro answer _ rfl
  exact h answer

theorem refills_foldlM {f : β → α → Program Os β}
    (h : ∀ state state' item, Refills units (f state item) (f state' item) fun _ _ ↦ True)
    (items : List α) (state state' : β) :
    Refills units (items.foldlM f state) (items.foldlM f state') fun _ _ ↦ True := by
  induction items generalizing state state' with
  | nil => exact refills_pure trivial
  | cons item items ih => exact (h state state' item).bind fun next next' _ ↦ ih next next'

end Rules

theorem refills_isWindowValid (hwnd : Hwnd) :
    Refills units (isWindowValid hwnd) (isWindowValid hwnd) fun valid valid' ↦ valid = valid' := by
  unfold isWindowValid
  split
  · exact refills_pure rfl
  refine refills_os_bind (fun _ ↦ rfl) fun known ↦ ?_
  split
  · exact refills_pure rfl
  refine refills_os_bind (fun _ ↦ rfl) fun visible ↦ ?_
  split
  · exact refills_pure rfl
  have htitle : Refills units (os (.getWindowText hwnd 256)) (os (.getWindowText hwnd 256))
      fun title title' ↦ title.count = title'.count :=
    ensures_os.2 fun title ↦
      ⟨refillText units title, runs_os.2 rfl, (count_refillText units title).symm⟩
  refine htitle.bind fun title title' hcount ↦ ?_
  rw [← hcount]
  split
  · exact refills_pure rfl
  refine refills_os_bind (fun _ ↦ rfl) fun isUWP ↦ ?_
  split <;> exact refills_pure rfl

theorem refills_enumerateWindows (manager manager' : WindowManager) :
    Refills units (enumerateWindows manager) (enumerateWindows manager') fun _ _ ↦ True := by
  have htext (call : Call) : Refills units (os call) (os call) fun _ _ ↦ True := by
    refine ensures_os.2 fun answer ↦ ?_
    cases call <;> exact ⟨_, runs_os.2 rfl, trivial⟩
  refine refills_os_bind (fun _ ↦ rfl) fun windows ↦ ?_
  refine (refills_foldlM (fun manager manager' hwnd ↦ ?_) windows _ _).bind
    fun _ _ _ ↦ refills_pure trivial
  refine (refills_isWindowValid units hwnd).bind ?_
  rintro valid _ rfl
  split
  · exact refills_pure trivial
  · exact (htext _).bind fun _ _ _ ↦ (htext _).bind fun _ _ _ ↦ refills_pure trivial

theorem recognised_addWindows (windows : List WindowManagement.WindowInfo) :
    (windows.mapM WindowCasterServer.addWindow).Keeps fun event ↦ ∀ names call,
      byName.sameCall names call event.call → call = event.call := by
  refine Program.keeps_mapM (WindowCasterServer.keeps_addWindow ?_) windows
  intro text size answer names call hcall
  have hanonymous : anonymous call = .wideCharToMultiByte text size := hcall.1
  cases call <;> simp_all [anonymous]

/-- With other texts in the buffers, other texts are listed. -/
theorem exists_refilled {units : List UInt16} (hunits : units.length ≤ 255)
    {server server' : WindowCasterServer} {trace : List (Event Os)} {response : ServerResponse Bytes}
    (hruns : server.handleGetWindowList.Runs trace (response, server'))
    (hos : ∀ event ∈ trace, Documented event) :
    ∃ trace' response' server'', server.handleGetWindowList.Runs trace' (response', server'') ∧
      (∀ event ∈ trace', Documented event) ∧
      byName.Alike [] (byName.visible trace) (byName.visible trace') ∧
      response' = ServerResponse.map utf8
        ⟨none, some ⟨(readings trace).map fun reading ↦ entry (refillReading units reading).info⟩⟩ := by
  obtain ⟨listing, conversion, windows, infos, rfl, hlisting, hconversion, -, -⟩ :=
    runs_handleGetWindowList server trace _ hruns
  rw [List.forall_mem_append] at hos
  obtain ⟨⟨windows', manager'⟩, hlisting', -⟩ :=
    refills_enumerateWindows units server.windowManager server.windowManager listing _ hlisting
  obtain ⟨conversion', infos', hconversion', hos', halike⟩ :=
    Program.exists_runs_alike byName exists_documented (fun _ ↦ rfl)
      (recognised_addWindows windows') hos.2
  refine ⟨listing.map (refill units) ++ (conversion' ++ []), _, _, Program.runs_bind.2
    ⟨_, _, _, rfl, hlisting', Program.runs_bind.2 ⟨_, _, _, rfl, hconversion', rfl, rfl⟩⟩, ?_, ?_, ?_⟩
  · rw [List.append_nil, List.forall_mem_append, List.forall_mem_map]
    refine ⟨fun event hevent ↦ ?_, hos'⟩
    exact documented_refill hunits (inspects_enumerateWindows _ listing _ hlisting event hevent)
      (hos.1 event hevent)
  · have hvisible (windows : List WindowManagement.WindowInfo) :
        (windows.mapM WindowCasterServer.addWindow).Keeps fun event ↦
          byName.silent event.call = false :=
      Program.keeps_mapM (WindowCasterServer.keeps_addWindow fun _ _ _ ↦ rfl) windows
    have hconversions := Matching.visible_eq (hvisible windows conversion infos hconversion)
    have hconversions' := Matching.visible_eq (hvisible windows' conversion' infos' hconversion')
    rw [List.append_nil, Matching.visible_append, Matching.visible_append, hconversions, hconversions']
    exact .append (forall₂_refill units listing) halike
  · have hlist := readings_enumerateWindows _ _ _ hlisting' (refillText units ⟨0, []⟩)
    have hinfos := Program.Returns.mapM (returns_addWindow converting_documented) windows' conversion'
      infos' hconversion' hos'
    have hunlisted : ∀ event ∈ conversion, Unlisted event :=
      Program.keeps_mapM (WindowCasterServer.keeps_addWindow fun _ _ _ ↦ trivial) windows _ _
        hconversion
    rw [readingsFrom_refill] at hlist
    rw [readings, readingsFrom_append, readingsFrom_eq_nil hunlisted, List.append_nil, hinfos,
      show windows' = _ from hlist]
    simp [ServerResponse.map, WindowList.map]

end Texts

theorem measured_of_inspecting {event : Event Os} (h : Inspecting event) : Measured event := by
  obtain ⟨call, answer⟩ := event
  cases call <;> simp_all [Inspecting, Measured]

/-- No list depends on a rectangle. -/
theorem measured_handleGetWindowList (server : WindowCasterServer) :
    server.handleGetWindowList.Keeps Measured := by
  have hlist := (inspects_enumerateWindows server.windowManager).mono fun event h ↦
    measured_of_inspecting h
  have hwindow (window : WindowManagement.WindowInfo) :
      (WindowCasterServer.addWindow window).Keeps Measured :=
    WindowCasterServer.keeps_addWindow (fun _ _ _ ↦ trivial) window
  exact Program.keeps_bind hlist fun _ ↦ Program.keeps_bind (Program.keeps_mapM hwindow _) fun _ ↦
    Program.keeps_pure _

/-! ## Requests -/

theorem converted_ne : converted [] ≠ converted [65] := by decide

/-- Two texts in the buffers of a call that has failed are listed as two different texts. -/
theorem read_of_entry_eq {reading : Reading}
    (h : entry (refillReading [] reading).info = entry (refillReading [65] reading).info) :
    Read reading := by
  have htext (text : WindowText)
      (h : converted (refillText [] text).units = converted (refillText [65] text).units) :
      text.count ≠ 0 := by
    intro hcount
    rw [refillText, if_pos hcount, refillText, if_pos hcount] at h
    exact converted_ne h
  obtain ⟨-, htitle, hclass⟩ := WindowInfo.mk.inj h
  exact ⟨htext _ htitle, htext _ hclass⟩

theorem runs_respond {codec : Codec} {server server' : WindowCasterServer} {message : Bytes}
    {request : ClientRequest} {trace : List (Event Os)} {response : ServerResponse Bytes}
    (hparse : codec.parseFromString message = some request)
    (hruns : (server.dispatch request).Runs trace (response, server')) :
    (server.respond codec message).Runs trace (response.serializeToString, server') := by
  rw [WindowCasterServer.respond, hparse]
  exact Program.runs_bind.2 ⟨trace, [], _, (List.append_nil trace).symm, hruns, rfl, rfl⟩

/-- The request is handled independently of the earlier ones if and only if no call has failed for
it whose buffer is then used. -/
theorem independent_iff (codec : Codec) (history : List Handled) (handled : Handled)
    (server : WindowCasterServer) (hrun : (handlings codec).Run (history ++ [handled]) server)
    (hos : ∀ event ∈ handled.trace, Documented event) :
    Independent codec handled ↔ Filled handled.trace := by
  refine ⟨fun hindependent ↦ ?_, independent_of_filled hrun⟩
  obtain ⟨before, hbefore, hruns⟩ := hrun.of_concat
  -- another run from the same state of the server, for which the property can be used
  have hother {trace : List (Event Os)} {response : Option Bytes} {server : WindowCasterServer}
      (hruns : (before.respond codec handled.message).Runs trace (response, server))
      (hos : ∀ event ∈ trace, Documented event)
      (halike : byName.Alike [] (byName.visible handled.trace) (byName.visible trace)) :=
    hindependent history ⟨handled.message, trace, response⟩ server (hbefore.next hruns) rfl hos halike
  cases hparse : codec.parseFromString handled.message with
  | none =>
    obtain ⟨hnone, -⟩ := eq_none_of_runs_respond hparse hruns
    rw [hnone]
    exact ⟨by simp, by simp [readings, readingsFrom]⟩
  | some request =>
    obtain ⟨response, hdispatch, -, hresponse⟩ := reply_of_runs_respond hparse hruns hos
    by_cases hrequest : request = ⟨some .getWindowList⟩
    · subst hrequest
      refine ⟨measured_handleGetWindowList before _ _ hdispatch, fun reading hreading ↦ ?_⟩
      have hlisted (units : List UInt16) (hunits : units.length ≤ 255) :
          (ServerResponse.map utf8 ⟨none, some ⟨(readings handled.trace).map fun reading ↦
            entry (refillReading units reading).info⟩⟩).serializeToString = handled.response := by
        obtain ⟨trace', response', server', hruns', hos', halike, rfl⟩ :=
          exists_refilled hunits hdispatch hos
        exact (hother (runs_respond hparse hruns') hos' halike).1
      have hempty := wire_lawful.response ((hlisted [] (by simp)).trans hresponse)
      have hletter := wire_lawful.response ((hlisted [65] (by simp)).trans hresponse)
      have hentries := hempty.symm.trans hletter
      simp only [Option.some.injEq, ServerResponse.mk.injEq, WindowList.mk.injEq, true_and,
        List.map_inj_left] at hentries
      exact read_of_entry_eq (hentries reading hreading)
    · have hne : request.request ≠ some .getWindowList := by
        obtain ⟨request⟩ := request
        simpa using hrequest
      obtain ⟨hunlisted, hexposed⟩ := exposed_dispatch before hne _ _ hdispatch
      refine ⟨?_, by simp [readings, readingsFrom_eq_nil hunlisted]⟩
      obtain hmeasured | ⟨trace', hruns', hdiscloses⟩ := hexposed
      · exact hmeasured
      · obtain ⟨-, hdrawings⟩ := hother (runs_respond hparse hruns') (hdiscloses.documented hos)
          (hdiscloses.alike [])
        exact absurd hdrawings (hdiscloses.draws _)

/-! ## A frame and the end of a rendering -/

/-- Two systems that always answer a call in the same way, and corresponding calls alike. -/
theorem alike_of_forall_mem {answers answers' : (call : Call) → call.Answer}
    (hanswers : ∀ call call', anonymous call = anonymous call' →
      anonymousEvent ⟨call, answers call⟩ = anonymousEvent ⟨call', answers' call'⟩)
    {names : Names} {trace trace' : List (Event Os)}
    (h : ∀ event ∈ trace, event.answer = answers event.call)
    (h' : ∀ event ∈ trace', event.answer = answers' event.call) : byName.Alike names trace trace' := by
  induction trace generalizing names trace' with
  | nil => trivial
  | cons event trace ih =>
    cases trace' with
    | nil => trivial
    | cons event' trace' =>
      obtain ⟨hevent, htrace⟩ := List.forall_mem_cons.1 h
      obtain ⟨hevent', htrace'⟩ := List.forall_mem_cons.1 h'
      obtain ⟨call, answer⟩ := event
      obtain ⟨call', answer'⟩ := event'
      obtain rfl : answer = answers call := hevent
      obtain rfl : answer' = answers' call' := hevent'
      exact fun hcall ↦ ⟨hanswers call call' hcall.1, ih htrace htrace'⟩

/-- Everything is granted but the rectangle, and this is in memory instead. -/
def leaving (rect : Rect) : (call : Call) → call.Answer
  | .getClientRect _ => (false, rect)
  | call => granting call

theorem documented_leaving (rect : Rect) (call : Call) : Documented ⟨call, leaving rect call⟩ := by
  cases call with
  | getClientRect hwnd => trivial
  | _ => exact documented_granting _

theorem anonymousEvent_leaving {rect rect' : Rect} {call call' : Call}
    (h : anonymous call = anonymous call') :
    anonymousEvent ⟨call, leaving rect call⟩ = anonymousEvent ⟨call', leaving rect' call'⟩ := by
  have hanonymous (rect : Rect) (call : Call) : anonymousEvent ⟨call, leaving rect call⟩ =
      anonymousEvent ⟨anonymous call, leaving ⟨0, 0, 0, 0⟩ (anonymous call)⟩ := by
    cases call <;> rfl
  rw [hanonymous rect call, h, ← hanonymous rect' call']

/-- A request for one frame, and the request that ends the rendering. -/
def frameRequest : ClientRequest := ⟨some (.renderCommand ⟨7, some (.image ⟨[0, 0, 255, 0], 1, 1⟩)⟩)⟩

def stopRequest : ClientRequest := ⟨some (.stopRender ⟨7⟩)⟩

theorem parse_frameRequest : wire.parseFromString frameRequest.encode = some frameRequest :=
  wire_lawful.request rfl (by decide)

theorem parse_stopRequest : wire.parseFromString stopRequest.encode = some stopRequest :=
  wire_lawful.request rfl (by decide)

theorem served_frameRequest :
    (served wire granting .new frameRequest.encode).2 = ⟨⟨[]⟩, ⟨7, 2, 3, 4, 1, 1⟩⟩ := by
  simp only [served, WindowCasterServer.respond, parse_frameRequest]
  rfl

/-- Before a frame and after one. -/
theorem drawings_leaving (rect : Rect) {server : WindowCasterServer}
    (hserver : server = .new ∨ server = ⟨⟨[]⟩, ⟨7, 2, 3, 4, 1, 1⟩⟩) :
    drawings (served wire (leaving rect) server frameRequest.encode).1.trace =
      [.setDIBits 2 4 0 1 [0, 0, 255, 0] (Renderer.bmiHeader 1 1),
        .stretchBlt 2 0 0 (rect.right - rect.left) (rect.bottom - rect.top) 3 0 0 1 1] := by
  simp only [served, WindowCasterServer.respond, parse_frameRequest]
  obtain rfl | rfl := hserver <;> rfl

/-- A window that is closed before its rectangle is asked for: what a new server has in memory is not
what an earlier frame has left there. -/
theorem not_independent_frame :
    let first := served wire (leaving ⟨0, 0, 0, 0⟩) .new frameRequest.encode
    (handlings wire).Run [first.1] first.2 ∧ (∀ event ∈ first.1.trace, Documented event) ∧
      ¬ Independent wire first.1 := by
  intro first
  have hrun := (Machine.Run.start rfl).next
    (step_served wire (leaving ⟨0, 0, 0, 0⟩) .new frameRequest.encode)
  have hos := forall_mem_served wire (leaving ⟨0, 0, 0, 0⟩) .new frameRequest.encode (documented_leaving _)
  refine ⟨hrun, hos, fun hindependent ↦ ?_⟩
  let earlier := served wire granting .new frameRequest.encode
  let second := served wire (leaving ⟨0, 0, 640, 480⟩) earlier.2 frameRequest.encode
  have hrun' : (handlings wire).Run [earlier.1, second.1] second.2 :=
    ((Machine.Run.start rfl).next (step_served _ _ _ _)).next (step_served _ _ _ _)
  have hanswers (rect : Rect) (server : WindowCasterServer) :
      ∀ event ∈ byName.visible (served wire (leaving rect) server frameRequest.encode).1.trace,
        event.answer = leaving rect event.call := by
    have hall : ∀ event ∈ (served wire (leaving rect) server frameRequest.encode).1.trace,
        event.answer = leaving rect event.call := forall_mem_served _ _ _ _ fun _ ↦ rfl
    exact fun event hevent ↦ hall event (List.mem_of_mem_filter hevent)
  have halike : byName.Alike [] (byName.visible first.1.trace) (byName.visible second.1.trace) :=
    alike_of_forall_mem (fun _ _ ↦ anonymousEvent_leaving) (hanswers _ _) (hanswers _ _)
  obtain ⟨-, hdrawings⟩ := hindependent [earlier.1] second.1 second.2 hrun' rfl
    (forall_mem_served _ _ _ _ (documented_leaving _)) halike
  rw [drawings_leaving _ (.inl rfl), drawings_leaving _ (.inr served_frameRequest)] at hdrawings
  cases hdrawings with
  | cons _ hrest =>
    cases hrest with
    | cons hcall _ => exact absurd (Call.stretchBlt.inj hcall.1).2.2.2.1 (by decide)

/-- A server that has drawn a frame clears the window like one that has just been started. -/
theorem independent_stop :
    let earlier := served wire granting .new frameRequest.encode
    let stop := served wire granting earlier.2 stopRequest.encode
    (handlings wire).Run [earlier.1, stop.1] stop.2 ∧ Independent wire stop.1 := by
  intro earlier stop
  have hrun : (handlings wire).Run [earlier.1, stop.1] stop.2 :=
    ((Machine.Run.start rfl).next (step_served _ _ _ _)).next (step_served _ _ _ _)
  have hos := forall_mem_served wire granting earlier.2 stopRequest.encode documented_granting
  have hmeasured (call : Call) : Measured ⟨call, granting call⟩ := by
    cases call <;> trivial
  have hunlisted : readings stop.1.trace = [] := by
    simp only [stop, earlier]
    rw [served_frameRequest]
    simp only [served, WindowCasterServer.respond, parse_stopRequest]
    rfl
  refine ⟨hrun, (independent_iff wire [earlier.1] stop.1 stop.2 hrun hos).2 ⟨?_, by simp [hunlisted]⟩⟩
  exact forall_mem_served wire granting earlier.2 stopRequest.encode hmeasured

end WindowCaster.Server.Leftovers
