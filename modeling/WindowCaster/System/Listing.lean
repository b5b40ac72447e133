import WindowCaster.Client.Main
import WindowCaster.Server.Replies

/-!
# The window list from the desktop to the client

A desktop of windows whose titles, where they have any, and class names are proper text is enumerated
by the server, converted, sent and kept by the client. The list that arrives has the right windows in the right
order, but every text has the zero behind it that the conversion was told to count.
-/

namespace WindowCaster.System.Listing

open Foundation.Interaction Foundation.LengthFraming Foundation.Text
open Protocol.Messages Protocol.Readers Client Client.Network Client.Requests Client.Main
open Server.Win32 Server.WindowManagement Server.Handling Server.Replies

/-! ## The desktop -/

/-- A text that the server's buffers hold as it is: 1 to 255 units and no zero among them. -/
structure Caption where
  chars : List Char
  ne_nil : chars ≠ []
  length_le : (encodeUtf16 chars).length ≤ 255
  zero_notMem : Char.ofNat 0 ∉ chars

namespace Caption

def units (caption : Caption) : List UInt16 := encodeUtf16 caption.chars

def text (caption : Caption) : String := String.ofList caption.chars

/-- What a text function puts into a buffer of this many units. -/
def read (caption : Caption) (maxCount : ℕ) : WindowText :=
  ⟨(caption.units.take (maxCount - 1)).length, caption.units.take (maxCount - 1)⟩

theorem read_256 (caption : Caption) : caption.read 256 = ⟨caption.units.length, caption.units⟩ := by
  have htake : caption.units.take 255 = caption.units := List.take_of_length_le caption.length_le
  simp only [read, Nat.reduceSub, htake]

theorem length_units_ne_zero (caption : Caption) : caption.units.length ≠ 0 := by
  obtain ⟨chars, hne, -, -⟩ := caption
  cases chars with
  | nil => exact absurd rfl hne
  | cons char chars =>
    simp only [units, encodeUtf16, List.flatMap_cons, List.length_append, encodeUtf16Char]
    split <;> simp

/-- The conversion adds one character. -/
theorem converted_units (caption : Caption) :
    converted caption.units = String.ofList (caption.chars ++ [Char.ofNat 0]) := by
  rw [converted, units, decodeUtf16_encodeUtf16]

theorem converted_ne_text (caption : Caption) : converted caption.units ≠ caption.text := by
  intro h
  rw [converted_units, text, String.ofList_inj] at h
  have hlength := congrArg List.length h
  simp at hlength

end Caption

/-- What the system knows about a window; not every window has a title. -/
structure Facts where
  known : Bool
  visible : Bool
  cloaked : Option UInt32
  title : Option Caption
  className : Caption

/-- What the text function puts into a buffer of this many units for the title, if there is one. -/
def Facts.readTitle (facts : Facts) (maxCount : ℕ) : WindowText :=
  facts.title.elim ⟨0, []⟩ fun caption ↦ caption.read maxCount

/-- The top-level windows in the order of their enumeration, and the facts about all windows. -/
structure Desktop where
  windows : List Hwnd
  facts : Hwnd → Facts

namespace Desktop

variable (desktop : Desktop)

/-- The answers of a system with this desktop. -/
def Answers : Event Os → Prop
  | ⟨.isWindow hwnd, known⟩ => known = (desktop.facts hwnd).known
  | ⟨.isWindowVisible hwnd, visible⟩ => visible = (desktop.facts hwnd).visible
  | ⟨.getWindowText hwnd maxCount, title⟩ => title = (desktop.facts hwnd).readTitle maxCount
  | ⟨.getClassName hwnd maxCount, className⟩ =>
    className = (desktop.facts hwnd).className.read maxCount
  | ⟨.dwmGetWindowAttributeCloaked hwnd, cloaked⟩ => cloaked = (desktop.facts hwnd).cloaked
  | ⟨.enumWindows, windows⟩ => windows = desktop.windows
  | ⟨.wideCharToMultiByte text size, answer⟩ => Documented ⟨.wideCharToMultiByte text size, answer⟩
  | _ => True

/-- The windows for which `IsWindowValid` is true. -/
def valid (hwnd : Hwnd) : Bool :=
  hwnd ≠ nullptr && (desktop.facts hwnd).known && (desktop.facts hwnd).visible &&
    (desktop.facts hwnd).title.isSome && !(desktop.facts hwnd).cloaked.any (· ≠ 0)

/-- The title of a window; a window without one has the empty text. -/
def titleOf (hwnd : Hwnd) : String := (desktop.facts hwnd).title.elim "" Caption.text

/-- The list as it should arrive. -/
def listed : List (WindowInfo String) :=
  (desktop.windows.filter desktop.valid).map fun hwnd ↦
    ⟨hwnd, desktop.titleOf hwnd, (desktop.facts hwnd).className.text⟩

/-- A window as the server notes it. -/
def info (hwnd : Hwnd) : Server.WindowManagement.WindowInfo :=
  ⟨hwnd, ((desktop.facts hwnd).readTitle 256).units, (desktop.facts hwnd).className.units⟩

/-- The list as it does arrive. -/
def arriving : List (WindowInfo String) :=
  (desktop.windows.filter desktop.valid).map fun hwnd ↦ entry (desktop.info hwnd)

/-! ## The server -/

variable {desktop}

theorem converting_answers : Converting desktop.Answers := fun _ _ _ ↦ id

theorem returns_isWindowValid (hwnd : Hwnd) :
    (isWindowValid hwnd).Returns desktop.Answers fun valid ↦ valid = desktop.valid hwnd := by
  unfold isWindowValid
  split
  · next hnull => exact Program.returns_pure.2 (by simp [valid, hnull])
  next hne =>
  have hknown : (os (.isWindow hwnd)).Returns desktop.Answers fun known ↦
      known = (desktop.facts hwnd).known := returns_os.2 fun _ ↦ id
  refine hknown.bind fun known hknown ↦ ?_
  split
  · next hunknown => exact Program.returns_pure.2 (by simp_all [valid])
  have hvisible : (os (.isWindowVisible hwnd)).Returns desktop.Answers fun visible ↦
      visible = (desktop.facts hwnd).visible := returns_os.2 fun _ ↦ id
  refine hvisible.bind fun visible hvisible ↦ ?_
  split
  · next hinvisible => exact Program.returns_pure.2 (by simp_all [valid])
  have htitle : (os (.getWindowText hwnd 256)).Returns desktop.Answers fun title ↦
      title = (desktop.facts hwnd).readTitle 256 := returns_os.2 fun _ ↦ id
  refine htitle.bind fun title htitle ↦ ?_
  rw [Facts.readTitle] at htitle
  cases hsome : (desktop.facts hwnd).title with
  | none =>
    have hcount : title.count = 0 := by rw [htitle, hsome, Option.elim_none]
    rw [if_pos hcount]
    exact Program.returns_pure.2 (by simp [valid, hsome])
  | some caption =>
    rw [hsome, Option.elim_some, Caption.read_256] at htitle
    have hcount : title.count ≠ 0 := by
      rw [htitle]
      exact caption.length_units_ne_zero
    rw [if_neg hcount]
    have hcloaked : (os (.dwmGetWindowAttributeCloaked hwnd)).Returns desktop.Answers fun cloaked ↦
        cloaked = (desktop.facts hwnd).cloaked := returns_os.2 fun _ ↦ id
    refine hcloaked.bind fun cloaked hcloaked ↦ ?_
    split
    · exact Program.returns_pure.2 (by simp_all [valid])
    · exact Program.returns_pure.2 (by simp_all [valid])

theorem returns_enumWindowsProc (manager : Server.WindowManagement.WindowManager) (hwnd : Hwnd) :
    (enumWindowsProc manager hwnd).Returns desktop.Answers fun manager' ↦
      manager'.windowList = manager.windowList ++
        if desktop.valid hwnd then [desktop.info hwnd] else [] := by
  refine (returns_isWindowValid hwnd).bind ?_
  rintro valid rfl
  cases hvalid : desktop.valid hwnd with
  | false => exact Program.returns_pure.2 (by simp)
  | true =>
  have htitle : (os (.getWindowText hwnd 256)).Returns desktop.Answers fun title ↦
      title = (desktop.facts hwnd).readTitle 256 := returns_os.2 fun _ ↦ id
  have hclass : (os (.getClassName hwnd 256)).Returns desktop.Answers fun className ↦
      className = (desktop.facts hwnd).className.read 256 := returns_os.2 fun _ ↦ id
  refine htitle.bind ?_
  rintro title rfl
  refine hclass.bind ?_
  rintro className rfl
  exact Program.returns_pure.2 (by simp [info, Caption.read_256])

/-- The enumeration notes the valid windows in their order. -/
theorem returns_enumerateWindows (manager : Server.WindowManagement.WindowManager) :
    (enumerateWindows manager).Returns desktop.Answers fun result ↦
      result.1 = (desktop.windows.filter desktop.valid).map desktop.info := by
  have hlist : (os .enumWindows).Returns desktop.Answers fun windows ↦ windows = desktop.windows :=
    returns_os.2 fun _ ↦ id
  refine hlist.bind ?_
  rintro windows rfl
  refine (Program.Returns.foldlM (fun before manager ↦
    manager.windowList = (before.filter desktop.valid).map desktop.info) rfl ?_ desktop.windows).bind
      fun manager hmanager ↦ Program.returns_pure.2 hmanager
  intro before hwnd manager hmanager
  refine (returns_enumWindowsProc manager hwnd).mono fun manager' hmanager' ↦ ?_
  rw [hmanager', hmanager, List.filter_append, List.map_append]
  cases hvalid : desktop.valid hwnd <;> simp [hvalid]

theorem returns_handleGetWindowList (server : WindowCasterServer) :
    server.handleGetWindowList.Returns desktop.Answers fun result ↦
      result.1 = ServerResponse.map utf8 ⟨none, some ⟨desktop.arriving⟩⟩ := by
  refine (returns_enumerateWindows server.windowManager).bind ?_
  rintro ⟨windows, manager⟩ hwindows
  refine (Program.Returns.mapM (returns_addWindow converting_answers) windows).bind ?_
  rintro infos rfl
  obtain rfl : windows = _ := hwindows
  exact Program.returns_pure.2 (by simp [ServerResponse.map, WindowList.map, arriving])

/-- The texts that have been read are those of the desktop. -/
theorem returns_listing (server : WindowCasterServer) :
    server.handleGetWindowList.Ensures fun trace _ ↦ (∀ event ∈ trace, desktop.Answers event) →
      Server.Replies.listing trace = desktop.arriving := by
  intro trace result hruns hanswers
  obtain ⟨first, conversion, windows, infos, rfl, hlisting, -, -, hwindows⟩ :=
    runs_handleGetWindowList server trace result hruns
  have hlist : windows = (desktop.windows.filter desktop.valid).map desktop.info :=
    returns_enumerateWindows _ first _ hlisting fun event hevent ↦
      hanswers event (List.mem_append_left conversion hevent)
  calc
    _ = ((readings (first ++ conversion)).map Server.WindowManagement.Reading.info).map entry :=
      List.map_map.symm
    _ = ((desktop.windows.filter desktop.valid).map desktop.info).map entry := by
      rw [← hwindows, hlist]
    _ = desktop.arriving := List.map_map

end Desktop

/-! ## The command -/

/-- A list command from end to end: the client's run, and the server's handling of the message that
the client wrote with the response that the client read. -/
structure ListCommand (codec : Codec) (desktop : Desktop) where
  before : Client.Main.WindowManager
  after : Client.Main.WindowManager
  exchanged : List (Event Tcp)
  listed : (runList codec ⟨true⟩ before).Runs exchanged (some after)
  server : WindowCasterServer
  server' : WindowCasterServer
  message : Bytes
  response : Bytes
  calls : List (Event Os)
  handled : (server.respond codec message).Runs calls (some response, server')
  answered : ∀ event ∈ calls, desktop.Answers event
  requested : written exchanged = frame message
  replied : taken exchanged = frame response

/-- A run of the list command that comes to its end. -/
theorem runs_runList {codec : Codec} {before after : Client.Main.WindowManager}
    {trace : List (Event Tcp)} (h : (runList codec ⟨true⟩ before).Runs trace (some after)) :
    ∃ request response, codec.writeToBytes ⟨some .getWindowList⟩ = some request ∧
      written trace = frame request ∧
      (∀ bytes, taken trace = frame bytes → codec.parseFromBytes bytes = some response) ∧
      after = response.windowList.elim before fun list ↦ before.updateWindows list.windows := by
  unfold runList at h
  cases hrequest : createGetWindowListRequest codec with
  | none => simp [hrequest] at h
  | some request =>
  rw [hrequest] at h
  obtain ⟨first, second, response, rfl, hexchange, hafter⟩ := Program.runs_bind.1 h
  cases response with
  | none => simp at hafter
  | some response =>
  refine ⟨request, response, hrequest, ?_⟩
  have hwritten := written_of_exchange hexchange
  cases hlist : response.windowList with
  | none =>
    simp only [hlist, Program.runs_pure, Option.some.injEq] at hafter
    obtain ⟨rfl, rfl⟩ := hafter
    exact ⟨by simpa using hwritten, fun bytes ↦ by simpa using parse_of_exchange hexchange, by simp⟩
  | some list =>
    simp only [hlist, Program.runs_pure, Option.some.injEq] at hafter
    obtain ⟨rfl, rfl⟩ := hafter
    exact ⟨by simpa using hwritten, fun bytes ↦ by simpa using parse_of_exchange hexchange, by simp⟩

/-- What arrives is the list of the valid windows with their converted texts. -/
theorem windows_eq_arriving {codec : Codec} (hcodec : codec.Lawful) {desktop : Desktop}
    (command : ListCommand codec desktop) : command.after.windows = desktop.arriving := by
  obtain ⟨request, response, hwrite, hwritten, hparse, hafter⟩ := runs_runList command.listed
  obtain rfl : command.message = request :=
    frame_injective (command.requested.symm.trans hwritten)
  have hlength : command.message.length < 2 ^ 31 := by
    rw [hcodec.length hwrite]
    decide
  have hhandled := command.handled
  rw [WindowCasterServer.respond, hcodec.request hwrite hlength] at hhandled
  obtain ⟨first, second, ⟨reply, server⟩, hcalls, hlist, hdone⟩ := Program.runs_bind.1 hhandled
  obtain ⟨rfl, hresponse⟩ := hdone
  obtain ⟨hserialized, -⟩ := Prod.mk.inj hresponse
  have hanswered : ∀ event ∈ first, desktop.Answers event := by
    intro event hevent
    exact command.answered event (by simp [hcalls, hevent])
  have hreply : reply = ServerResponse.map utf8 ⟨none, some ⟨desktop.arriving⟩⟩ :=
    Desktop.returns_handleGetWindowList command.server _ _ hlist hanswered
  have hparsed := hparse command.response command.replied
  rw [hcodec.response (by rw [← hreply, ← hserialized])] at hparsed
  obtain rfl := Option.some.inj hparsed
  rw [hafter]
  rfl

/-! ## Commands that come to their end -/

theorem exists_answer (desktop : Desktop) (call : Server.Win32.Call) :
    ∃ answer : call.Answer, desktop.Answers ⟨call, answer⟩ := by
  cases call with
  | isWindow hwnd | isWindowVisible hwnd | getWindowText hwnd maxCount | getClassName hwnd maxCount
  | dwmGetWindowAttributeCloaked hwnd | enumWindows => exact ⟨_, rfl⟩
  | wideCharToMultiByte text size => exact exists_documented (.wideCharToMultiByte text size)
  | _ => exact ⟨granting _, trivial⟩

theorem documented_of_answers {desktop : Desktop} (hwindows : desktop.windows.length ≤ 2 ^ 16)
    {event : Event Os} (h : desktop.Answers event) : Documented event := by
  obtain ⟨call, answer⟩ := event
  cases call with
  | getWindowText hwnd maxCount =>
    obtain rfl : answer = (desktop.facts hwnd).readTitle maxCount := h
    rw [Facts.readTitle]
    cases (desktop.facts hwnd).title with
    | none => exact Nat.zero_le _
    | some caption => exact List.length_take_le _ _
  | getClassName hwnd maxCount =>
    obtain rfl : answer = (desktop.facts hwnd).className.read maxCount := h
    exact List.length_take_le _ _
  | enumWindows =>
    obtain rfl : answer = desktop.windows := h
    exact hwindows
  | wideCharToMultiByte text size => exact h
  | _ => trivial

/-- As many windows as a session can have are listed from every state of the server. -/
theorem exists_listCommand {codec : Codec} (hcodec : codec.Lawful) {desktop : Desktop}
    (hwindows : desktop.windows.length ≤ 2 ^ 16) {message : Bytes}
    (hwrite : codec.writeToBytes ⟨some .getWindowList⟩ = some message) :
    Nonempty (ListCommand codec desktop) := by
  have hlength : message.length < 2 ^ 31 := by
    rw [hcodec.length hwrite]
    decide
  obtain ⟨calls, ⟨answer, server'⟩, hhandled, hanswered⟩ := Program.exists_runs desktop.Answers
    (exists_answer desktop) (WindowCasterServer.new.respond codec message)
  obtain ⟨reply, -, ⟨hsmall, text, rfl, -⟩, rfl⟩ := reply_of_runs_respond
    (hcodec.request hwrite hlength) hhandled fun event hevent ↦
      documented_of_answers hwindows (hanswered event hevent)
  have hparse := hcodec.response (serializeToString_eq_some.2 ⟨hsmall, rfl⟩)
  obtain ⟨exchanged, hexchange, htaken⟩ := exists_runs_exchange hparse (by omega) message
  have hlisted : ∃ after, (runList codec ⟨true⟩ .new).Runs exchanged (some after) := by
    unfold runList createGetWindowListRequest
    rw [hwrite]
    cases hlist : text.windowList with
    | none =>
      refine ⟨.new, Program.runs_bind.2 ⟨exchanged, [], some text, by simp, hexchange, ?_⟩⟩
      simp [hlist]
    | some list =>
      refine ⟨.updateWindows .new list.windows,
        Program.runs_bind.2 ⟨exchanged, [], some text, by simp, hexchange, ?_⟩⟩
      simp [hlist]
  obtain ⟨after, hlisted⟩ := hlisted
  exact ⟨⟨.new, after, exchanged, hlisted, .new, server', message, _, calls, hhandled, hanswered,
    written_of_exchange hexchange, htaken⟩⟩

/-- The list arrives as it should exactly when there is nothing to list: every text that is listed
gets an additional zero at its end. -/
theorem listing_exact_iff (codec : Codec) (hcodec : codec.Lawful) (desktop : Desktop)
    (command : ListCommand codec desktop) :
    command.after.windows = desktop.listed ↔ ∀ hwnd ∈ desktop.windows, desktop.valid hwnd = false := by
  rw [windows_eq_arriving hcodec command, Desktop.arriving, Desktop.listed]
  constructor
  · intro h hwnd hmem
    by_contra hvalid
    have hfilter : hwnd ∈ desktop.windows.filter desktop.valid :=
      List.mem_filter.2 ⟨hmem, by simpa using hvalid⟩
    obtain ⟨caption, hcaption⟩ : ∃ caption, (desktop.facts hwnd).title = some caption := by
      apply Option.isSome_iff_exists.1
      simp_all [Desktop.valid]
    have hentry := congrArg Protocol.Messages.WindowInfo.title (List.map_inj_left.1 h hwnd hfilter)
    simp only [entry, Desktop.info, Desktop.titleOf, Facts.readTitle, hcaption, Option.elim_some,
      Caption.read_256] at hentry
    exact caption.converted_ne_text hentry
  · intro h
    have hnone : desktop.windows.filter desktop.valid = [] :=
      List.filter_eq_nil_iff.2 fun hwnd hmem ↦ by simp [h hwnd hmem]
    rw [hnone, List.map_nil, List.map_nil]

/-- Three windows, the second of them invisible and the third one without a title, with the class
name "A", which is also the title of the others. -/
def sampleDesktop (visible : Bool) : Desktop where
  windows := [1, 2, 3]
  facts hwnd :=
    let caption : Caption := ⟨['A'], by decide, by decide, by decide⟩
    ⟨true, visible && hwnd ≠ 2, none, if hwnd = 3 then none else some caption, caption⟩

theorem exists_sampleCommand (visible : Bool) :
    Nonempty (ListCommand wire (sampleDesktop visible)) :=
  exists_listCommand wire_lawful (by decide : (3 : ℕ) ≤ 2 ^ 16) rfl

/-- Without a visible window, the list arrives empty as it should. -/
theorem listing_exact_hidden :
    ∃ command : ListCommand wire (sampleDesktop false),
      command.after.windows = (sampleDesktop false).listed := by
  have hhidden : ∀ hwnd ∈ (sampleDesktop false).windows, (sampleDesktop false).valid hwnd = false := by
    intro hwnd _
    simp [Desktop.valid, sampleDesktop]
  obtain ⟨command⟩ := exists_sampleCommand false
  exact ⟨command, (listing_exact_iff wire wire_lawful _ command).2 hhidden⟩

/-- A window with the title "A" arrives with the title "A" and a zero. -/
theorem not_listing_exact :
    ∃ command : ListCommand wire (sampleDesktop true),
      command.after.windows = [⟨1, "A\x00", "A\x00"⟩] ∧
        (sampleDesktop true).listed = [⟨1, "A", "A"⟩] ∧
        command.after.windows ≠ (sampleDesktop true).listed := by
  obtain ⟨command⟩ := exists_sampleCommand true
  have harriving := windows_eq_arriving wire_lawful command
  refine ⟨command, ?_, by decide, ?_⟩
  · rw [harriving]
    decide
  · rw [harriving]
    decide

end WindowCaster.System.Listing
