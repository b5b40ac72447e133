import WindowCaster.Client.Session
import WindowCaster.Client.Window

/-!
# Window handles as arguments

A handle that `list` has printed comes back as the argument of `image` or `video`. Reading takes off
every leading `0x` and leaves the rest to `from_str_radix`, so it accepts more than what is printed,
and it gives back every printed handle. What has been read is the target of all requests.
-/

namespace WindowCaster.Client.WindowHandles

open Foundation.Interaction Foundation.LengthFraming Foundation.Numerals Foundation.Text
open Protocol.Messages Protocol.Readers Network Requests Video Main Session Window

/-! ## The code -/

/-- `trim_start_matches("0x")` -/
def trimStartMatches : List Char → List Char
  | '0' :: 'x' :: rest => trimStartMatches rest
  | text => text

/-- How both commands read their `hwnd`. -/
def parseHwnd (argument : String) : Option UInt64 :=
  (fromStrRadix 16 (2 ^ 64) (trimStartMatches argument.toList)).map UInt64.ofNat

/-- The arguments of the two commands that draw. -/
inductive Arguments (Packet Frame : Type)
  | image (hwnd : String) (opened : Option RgbImage)
  | video (hwnd : String) (input : Option (Input Packet Frame))

namespace Arguments

variable {Packet Frame : Type}

def hwnd : Arguments Packet Frame → String
  | .image hwnd _ => hwnd
  | .video hwnd _ => hwnd

def command : Arguments Packet Frame → Command Packet Frame
  | .image hwnd opened => .image (parseHwnd hwnd) opened
  | .video hwnd input => .video (parseHwnd hwnd) input

end Arguments

/-! ## What is read -/

/-- All leading copies are removed, and nothing else. -/
theorem trimStartMatches_eq_iff {text rest : List Char} : trimStartMatches text = rest ↔
    ∃ copies, text = (List.replicate copies ['0', 'x']).flatten ++ rest ∧ ¬['0', 'x'] <+: rest := by
  constructor
  · rintro rfl
    fun_induction trimStartMatches text with
    | case1 rest ih =>
      obtain ⟨copies, htext, hrest⟩ := ih
      refine ⟨copies + 1, ?_, hrest⟩
      rw [List.replicate_succ, List.flatten_cons, List.append_assoc, ← htext]
      rfl
    | case2 text hne =>
      refine ⟨0, rfl, ?_⟩
      rintro ⟨rest, rfl⟩
      exact hne rest rfl
  · rintro ⟨copies, rfl, hrest⟩
    induction copies with
    | zero =>
      rw [List.replicate_zero, List.flatten_nil, List.nil_append]
      unfold trimStartMatches
      split
      · exact absurd (List.prefix_append ['0', 'x'] _) hrest
      · rfl
    | succ copies ih => exact ih

theorem parseHwnd_eq_some_iff {argument : String} {handle : UInt64} :
    parseHwnd argument = some handle ↔
      ∃ copies rest, argument.toList = (List.replicate copies ['0', 'x']).flatten ++ rest ∧
        ¬['0', 'x'] <+: rest ∧ IsNumeral 16 rest handle.toNat := by
  have hread : parseHwnd argument = some handle ↔
      IsNumeral 16 (trimStartMatches argument.toList) handle.toNat := by
    rw [parseHwnd, Option.map_eq_some_iff]
    constructor
    · rintro ⟨value, hvalue, rfl⟩
      obtain ⟨hnumeral, hlt⟩ := (fromStrRadix_eq_some_iff (by decide) (by decide) (by decide)).1 hvalue
      rwa [UInt64.toNat_ofNat_of_lt' hlt]
    · intro hnumeral
      refine ⟨handle.toNat, ?_, UInt64.ofNat_toNat⟩
      exact (fromStrRadix_eq_some_iff (by decide) (by decide) (by decide)).2 ⟨hnumeral, handle.toNat_lt⟩
  rw [hread]
  constructor
  · intro hnumeral
    obtain ⟨copies, htext, hrest⟩ := trimStartMatches_eq_iff.1 rfl
    exact ⟨copies, _, htext, hrest, hnumeral⟩
  · rintro ⟨copies, rest, htext, hrest, hnumeral⟩
    rwa [trimStartMatches_eq_iff.2 ⟨copies, htext, hrest⟩]

/-! ## What has been printed -/

/-- The part of a text behind its first `skipped` characters and before `stop`. -/
def partOf (skipped : ℕ) (stop : Char) (text : String) : String :=
  String.ofList ((text.toList.drop skipped).takeWhile fun char ↦ char ≠ stop)

/-- What the user copies: the first word, or what stands behind the label of the first line. -/
def printedHandle (verbose : Bool) (text : String) : String :=
  if verbose then partOf 15 '\n' text else partOf 0 ' ' text

theorem partOf_eq {stop : Char} {text part : String} (label rest : List Char)
    (htext : text.toList = label ++ (part.toList ++ stop :: rest))
    (hpart : ∀ char ∈ part.toList, char ≠ stop) : partOf label.length stop text = part := by
  have htake : (part.toList ++ stop :: rest).takeWhile (fun char ↦ char ≠ stop) = part.toList := by
    rw [List.takeWhile_append_of_pos, List.takeWhile_cons_of_neg, List.append_nil]
    · simp
    · simpa using hpart
  rw [partOf, htext, List.drop_left, htake, String.ofList_toList]

@[simp]
theorem toList_handleText (handle : UInt64) :
    (handleText handle).toList = '0' :: 'x' :: upperDigits 16 handle.toNat := by
  simp [handleText]

theorem isSome_toDigit_of_mem_upperDigits {n : ℕ} {char : Char} (h : char ∈ upperDigits 16 n) :
    (toDigit 16 char).isSome :=
  isSome_toDigit_of_mem (by decide) (denotes_upperDigits (by decide) n) h

/-- The character that ends the handle does not occur in it. -/
theorem ne_of_mem_handleText {handle : UInt64} {char other : Char}
    (h : char ∈ (handleText handle).toList) (hx : other ≠ 'x') (hdigit : toDigit 16 other = none) :
    char ≠ other := by
  rintro rfl
  rw [toList_handleText, List.mem_cons, List.mem_cons] at h
  obtain rfl | rfl | h := h
  · cases hdigit
  · exact hx rfl
  · have hsome := isSome_toDigit_of_mem_upperDigits h
    rw [hdigit] at hsome
    cases hsome

theorem printedHandle_printed (verbose : Bool) (window : WindowInfo String) :
    printedHandle verbose (printed verbose window) = handleText window.handle := by
  cases verbose with
  | false =>
    apply partOf_eq [] ('[' :: (window.className.toList ++ ("] - ".toList ++ window.title.toList)))
    · have hspace (rest : List Char) : " [".toList ++ rest = ' ' :: '[' :: rest := by simp
      simp only [printed, display, Bool.false_eq_true, if_false, String.toList_append,
        List.append_assoc, hspace, List.nil_append, List.cons_append]
    · intro char hchar
      exact ne_of_mem_handleText hchar (by decide) rfl
  | true =>
    let label := ['W', 'i', 'n', 'd', 'o', 'w', ' ', 'H', 'a', 'n', 'd', 'l', 'e', ':', ' ']
    have hlabel : "Window Handle: ".toList = label := by simp [label]
    have hline (rest : List Char) :
        "\nTitle: ".toList ++ rest = '\n' :: ("Title: ".toList ++ rest) := by simp
    have htext : (printed true window).toList = label ++ ((handleText window.handle).toList ++
        '\n' :: ("Title: ".toList ++ (window.title.toList ++ ("\nClass: ".toList ++
          (window.className.toList ++ ("\n".toList ++ "\n".toList)))))) := by
      unfold printed displayVerbose
      simp only [if_true, String.toList_append, List.append_assoc, hlabel, hline, List.cons_append]
    apply partOf_eq label _ htext
    intro char hchar
    exact ne_of_mem_handleText hchar (by decide) rfl

theorem parseHwnd_handleText (handle : UInt64) : parseHwnd (handleText handle) = some handle := by
  rw [parseHwnd_eq_some_iff]
  refine ⟨1, upperDigits 16 handle.toNat, by rw [toList_handleText]; rfl, ?_, ?_⟩
  · intro hprefix
    have hmem : 'x' ∈ upperDigits 16 handle.toNat := hprefix.subset (by simp)
    exact absurd (isSome_toDigit_of_mem_upperDigits hmem) (by decide)
  · exact isNumeral_upperDigits (by decide) _

/-! ## What is requested -/

/-- The request is to draw on this window. -/
def Targets (hwnd : UInt64) (request : ClientRequest) : Prop :=
  match request.request with
  | some (.renderCommand command) => command.targetWindow = hwnd
  | _ => False

/-- Only requests for this window are written, each in two writes. -/
def WritesFor (codec : Codec) (hwnd : UInt64) (event : Event Tcp) : Prop :=
  match event.call with
  | .writeAll bytes => ∃ request message, Targets hwnd request ∧
      codec.writeToBytes request = some message ∧
      (bytes = le32 (UInt32.ofNat message.length) ∨ bytes = message)
  | .readExact _ => True

section Commands

variable {Packet Frame : Type} {codec : Codec} {hwnd : UInt64} {request : ClientRequest}
  {message : Bytes}

theorem writesFor_sendMessage (client : NetworkClient) (htargets : Targets hwnd request)
    (hwrite : codec.writeToBytes request = some message) :
    (client.sendMessage message).Keeps (WritesFor codec hwnd) := by
  have hwriteAll (bytes : Bytes)
      (h : bytes = le32 (UInt32.ofNat message.length) ∨ bytes = message) :
      (writeAll bytes).Keeps (WritesFor codec hwnd) :=
    Program.keeps_perform.2 fun _ ↦ ⟨request, message, htargets, hwrite, h⟩
  unfold NetworkClient.sendMessage
  split
  · refine Program.keeps_bind (hwriteAll _ (.inl rfl)) fun sent ↦ ?_
    split
    · exact hwriteAll _ (.inr rfl)
    · exact Program.keeps_pure false
  · exact Program.keeps_pure false

theorem writesFor_exchange (client : NetworkClient) (htargets : Targets hwnd request)
    (hwrite : codec.writeToBytes request = some message) :
    (exchange codec client message).Keeps (WritesFor codec hwnd) := by
  have hread (length : ℕ) : (readExact length).Keeps (WritesFor codec hwnd) :=
    Program.keeps_perform.2 fun _ ↦ trivial
  have hreceive : client.receiveMessage.Keeps (WritesFor codec hwnd) := by
    unfold NetworkClient.receiveMessage
    split
    · refine Program.keeps_bind (hread 4) fun lenBytes ↦ ?_
      cases lenBytes with
      | none => exact Program.keeps_pure none
      | some lenBytes => exact Program.keeps_bind (hread _) fun _ ↦ Program.keeps_pure _
    · exact Program.keeps_pure none
  refine Program.keeps_bind (writesFor_sendMessage client htargets hwrite) fun sent ↦ ?_
  split
  · refine Program.keeps_bind hreceive fun response ↦ ?_
    cases response <;> exact Program.keeps_pure _
  · exact Program.keeps_pure none

variable {input : Input Packet Frame}

theorem writesFor_renderFrame (codec : Codec) (client : NetworkClient) (hwnd : UInt64)
    (frame : Frame) :
    (renderFrame codec client hwnd input frame).Keeps (WritesFor codec hwnd) := by
  unfold renderFrame
  split
  · exact Program.keeps_pure false
  · next message hrequest =>
    obtain ⟨frameData, -, hwrite⟩ := Option.bind_eq_some_iff.1 hrequest
    have htargets : Targets hwnd (videoFrameRequest hwnd frameData input.width input.height) := rfl
    exact Program.keeps_bind (writesFor_exchange client htargets hwrite) fun _ ↦
      Program.keeps_pure _

theorem writesFor_renderAvailable (codec : Codec) (client : NetworkClient) (hwnd : UInt64)
    (state : input.decoder.State) :
    (renderAvailable codec client hwnd input state).Keeps (WritesFor codec hwnd) := by
  induction state using input.decoder.drain_induction with
  | hnone state hnone =>
    rw [renderAvailable_of_none hnone]
    exact Program.keeps_pure _
  | hsome state frame state' hsome ih =>
    rw [renderAvailable_of_some hsome]
    refine Program.keeps_bind (writesFor_renderFrame codec client hwnd frame) fun sent ↦ ?_
    split
    · exact ih
    · exact Program.keeps_pure none

theorem writesFor_renderPackets (codec : Codec) (client : NetworkClient) (hwnd : UInt64)
    (packets : List (ℕ × Packet)) (state : input.decoder.State) :
    (renderPackets codec client hwnd input packets state).Keeps (WritesFor codec hwnd) := by
  induction packets generalizing state with
  | nil => exact Program.keeps_pure _
  | cons packet packets ih =>
    obtain ⟨index, packet⟩ := packet
    rw [renderPackets]
    split
    · cases input.decoder.sendPacket state packet with
      | none => exact Program.keeps_pure none
      | some ready =>
        refine Program.keeps_bind (writesFor_renderAvailable codec client hwnd ready) fun next ↦ ?_
        cases next with
        | none => exact Program.keeps_pure none
        | some next => exact ih next
    · exact ih state

theorem writesFor_renderVideo (codec : Codec) (client : NetworkClient) (hwnd : UInt64)
    (input : Input Packet Frame) :
    (renderVideo codec client hwnd input).Keeps (WritesFor codec hwnd) := by
  refine Program.keeps_bind (writesFor_renderPackets codec client hwnd _ _) fun last ↦ ?_
  cases last with
  | none => exact Program.keeps_pure false
  | some last =>
    dsimp only
    split
    · exact Program.keeps_pure false
    · next message hrequest =>
      have htargets : Targets hwnd (videoFrameRequest hwnd [] input.width input.height) := rfl
      exact writesFor_sendMessage client htargets hrequest

theorem writesFor_runImage (codec : Codec) (client : NetworkClient) (hwnd : UInt64)
    (opened : Option RgbImage) :
    (runImage codec client (some hwnd) opened).Keeps (WritesFor codec hwnd) := by
  unfold runImage
  dsimp only
  split
  · exact Program.keeps_pure false
  · next message hrequest =>
    obtain ⟨img, -, hwrite⟩ := Option.bind_eq_some_iff.1 hrequest
    have htargets : Targets hwnd (imageRenderRequest hwnd img) := rfl
    exact Program.keeps_bind (writesFor_exchange client htargets hwrite) fun _ ↦
      Program.keeps_pure _

/-- Whatever the server answers, a command only writes requests for the window it has read. -/
theorem writesFor_main (codec : Codec) (client : NetworkClient)
    {arguments : Arguments Packet Frame} (h : parseHwnd arguments.hwnd = some hwnd) :
    (main codec client arguments.command).Keeps (WritesFor codec hwnd) := by
  cases arguments with
  | image argument opened =>
    rw [Arguments.hwnd] at h
    rw [Arguments.command, h]
    exact writesFor_runImage codec client hwnd opened
  | video argument input =>
    rw [Arguments.hwnd] at h
    rw [Arguments.command, h]
    cases input with
    | none => exact Program.keeps_pure false
    | some input => exact writesFor_renderVideo codec client hwnd input

theorem targets_of_mem_requests {arguments : Arguments Packet Frame}
    (h : parseHwnd arguments.hwnd = some hwnd) (hmem : request ∈ requests codec arguments.command) :
    Targets hwnd request := by
  cases arguments with
  | image argument opened =>
    rw [Arguments.hwnd] at h
    rw [Arguments.command, h] at hmem
    cases opened with
    | none => cases hmem
    | some img =>
      obtain ⟨rfl, -⟩ := writable_eq_some.1 (Option.mem_toList.1 hmem)
      exact rfl
  | video argument input =>
    rw [Arguments.hwnd] at h
    rw [Arguments.command, h] at hmem
    cases input with
    | none => cases hmem
    | some input =>
      obtain ⟨frameData, hwritable⟩ := frameData_of_mem_videoRequests hmem
      obtain ⟨rfl, -⟩ := writable_eq_some.1 hwritable
      exact rfl

/-- An argument that is no handle ends both commands before the first call. -/
theorem main_of_parseHwnd_none (codec : Codec) (client : NetworkClient)
    {arguments : Arguments Packet Frame} (h : parseHwnd arguments.hwnd = none) :
    main codec client arguments.command = pure false := by
  cases arguments with
  | image argument opened =>
    rw [Arguments.hwnd] at h
    rw [Arguments.command, h]
    rfl
  | video argument input =>
    rw [Arguments.hwnd] at h
    rw [Arguments.command, h]
    rfl

end Commands

/-- The printed handle is read back. Both commands read a handle exactly if the argument is, behind
all leading copies of `0x`, a hexadecimal numeral that fits; then all they request is for this
window, and otherwise they make no call. -/
theorem handle_survives (Packet Frame : Type) (codec : Codec) :
    (∀ (verbose : Bool) (window : WindowInfo String),
      parseHwnd (printedHandle verbose (printed verbose window)) = some window.handle) ∧
    (∀ (argument : String) (handle : UInt64), parseHwnd argument = some handle ↔
      ∃ copies rest, argument.toList = (List.replicate copies ['0', 'x']).flatten ++ rest ∧
        ¬['0', 'x'] <+: rest ∧ IsNumeral 16 rest handle.toNat) ∧
    ∀ arguments : Arguments Packet Frame,
      (∀ handle, parseHwnd arguments.hwnd = some handle →
        (main codec ⟨true⟩ arguments.command).Keeps (WritesFor codec handle) ∧
        Script codec .request (main codec ⟨true⟩ arguments.command)
          (requests codec arguments.command) ∧
        ∀ request ∈ requests codec arguments.command, Targets handle request) ∧
      (parseHwnd arguments.hwnd = none → main codec ⟨true⟩ arguments.command = pure false) := by
  refine ⟨?_, fun argument handle ↦ parseHwnd_eq_some_iff, fun arguments ↦ ⟨?_, ?_⟩⟩
  · intro verbose window
    rw [printedHandle_printed, parseHwnd_handleText]
  · intro handle hread
    refine ⟨writesFor_main codec ⟨true⟩ hread, script_main _, ?_⟩
    intro request hmem
    exact targets_of_mem_requests hread hmem
  · exact main_of_parseHwnd_none codec ⟨true⟩

end WindowCaster.Client.WindowHandles
